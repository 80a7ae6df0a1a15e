import Agid.Proofs.PosRegistry
import Agid.DurableRegistry

/-!
# Revocations and uses over a shared database

Two uses of one token meet in its row, so one of them is a conflict whatever the order of the
commands.  A revocation and a use meet nowhere: a use that has read its lists before a revocation
comes is inserted after it.  While no revocation completes in between, it comes first.
-/

namespace Agid.DurableRegistry

open AgidSecurePos PosRegistry

variable {platform : Platform} {registryId : JsString} {mode : StorageMode}

/-! ## One step -/

/-- What a call is known to answer. -/
def Phase.settled : Phase → Option Outcome
  | .describing p | .finishing p => some p.outcome
  | .logging p | .trimming p | .reporting p _ => some p.event.outcome
  | .returned result => some result.event.outcome
  | .called | .checking _ _ | .inserting _ | .failed _ => none

/-- The steps of a call, each with what it finds. -/
inductive Effect (platform : Platform) (registryId : JsString) (db : Database) (call : Call) :
    Database → Call → Prop
  | fail (error : JsString) : Effect platform registryId db call db (call.to (.failed error))
  | reject {p : Pending} (phase : call.phase = .called)
      (errors : idErrors platform call.mutation ≠ []) (outcome : p.outcome = .rejected) :
      Effect platform registryId db call db (call.to (.finishing p))
  | take {nowMs : JsNumber} (phase : call.phase = .called)
      (errors : idErrors platform call.mutation = []) (action : call.mutation.action = .markUsed) :
      Effect platform registryId db call db (call.to (.checking nowMs .none))
  | revoke {p : Pending} (phase : call.phase = .called)
      (errors : idErrors platform call.mutation = []) (action : call.mutation.action ≠ .markUsed)
      (outcome : p.outcome = .accepted) :
      Effect platform registryId db call db (call.to (.inserting p))
  | query {nowMs : JsNumber} {reads : Reads} (q : Query)
      (phase : call.phase = .checking nowMs reads) :
      Effect platform registryId db call db (call.to (.checking nowMs (reads.query db q)))
  | pass {nowMs : JsNumber} {reads : Reads} {sets : RegistrySets} {p : Pending}
      (phase : call.phase = .checking nowMs reads) (read : reads.sets = some sets)
      (decided : decideUse platform registryId sets call.mutation nowMs = .ok p)
      (outcome : p.outcome = .accepted) :
      Effect platform registryId db call db (call.to (.inserting p))
  | refuse {nowMs : JsNumber} {reads : Reads} {p : Pending}
      (phase : call.phase = .checking nowMs reads) (outcome : p.outcome ≠ .accepted) :
      Effect platform registryId db call db (call.to (.finishing p))
  | insert {p : Pending} {phase' : Phase} (phase : call.phase = .inserting p)
      (inserted : (insert platform db call.mutation).2 = true)
      (next : phase' = .describing p ∨ phase' = .finishing p) :
      Effect platform registryId db call (insert platform db call.mutation).1 (call.to phase')
  | conflict {p p' : Pending} (phase : call.phase = .inserting p)
      (inserted : (insert platform db call.mutation).2 = false) (outcome : p'.outcome = .conflict) :
      Effect platform registryId db call (insert platform db call.mutation).1
        (call.to (.finishing p'))
  | describe {p : Pending} (phase : call.phase = .describing p) :
      Effect platform registryId db call db (call.to (.finishing p))
  | log {p : Pending} {p' : Logged} (phase : call.phase = .finishing p)
      (outcome : p'.event.outcome = p.outcome) :
      Effect platform registryId db call db (call.to (.logging p'))
  | append {p : Logged} (phase : call.phase = .logging p) :
      Effect platform registryId db call (appendAudit db p.event) (call.to (.trimming p))
  | trim {p : Logged} (mode : StorageMode) (phase : call.phase = .trimming p) :
      Effect platform registryId db call (trimAudit mode db) (call.to (.reporting p .none))
  | report {p : Logged} {reads reads' : Reads} (phase : call.phase = .reporting p reads) :
      Effect platform registryId db call db (call.to (.reporting p reads'))
  | answer {p : Logged} {reads : Reads} {result : MutationResult}
      (phase : call.phase = .reporting p reads) (event : result.event = p.event) :
      Effect platform registryId db call db (call.to (.returned result))

variable {env : Env} {db db' : Database} {call call' : Call}

theorem decideUse_outcome {sets : RegistrySets} {m : Mutation} {nowMs : JsNumber} {p : Pending}
    (h : decideUse platform registryId sets m nowMs = .ok p) :
    p.outcome = .accepted ↔ p.errors = [] := by
  obtain ⟨registry, -, h⟩ := bind_eq_ok.1 h
  obtain ⟨decision, -, h⟩ := bind_eq_ok.1 h
  cases h
  simp only
  split_ifs with h1 h2 <;> simp [h1]

theorem begin_effect (hphase : call.phase = .called) :
    Effect platform registryId db call db (begin platform env call) := by
  unfold begin
  simp only
  split_ifs with herrors haction
  · exact .reject hphase herrors rfl
  · exact .take hphase (not_not.1 herrors) haction
  · unfold toInsert
    split
    · exact .fail _
    · exact .revoke hphase (not_not.1 herrors) haction rfl

theorem check_effect {nowMs : JsNumber} {reads : Reads}
    (hphase : call.phase = .checking nowMs reads) :
    Effect platform registryId db call db
      (check platform registryId env db call nowMs reads) := by
  unfold check
  split
  · split_ifs
    · exact .fail _
    · exact .query _ hphase
  · rename_i sets hsets
    split
    · exact .fail _
    · rename_i p hp
      split_ifs with herrors
      · unfold toInsert
        split
        · exact .fail _
        · exact .pass hphase hsets hp ((decideUse_outcome hp).2 herrors)
      · exact .refuse hphase fun h => herrors ((decideUse_outcome hp).1 h)

theorem runInsert_effect {p : Pending} (hphase : call.phase = .inserting p) :
    Effect platform registryId db call (runInsert platform mode env db call p).1
      (runInsert platform mode env db call p).2 := by
  unfold runInsert
  split_ifs
  · exact .fail _
  · simp only
    rcases hinserted : (insert platform db call.mutation).2 with _ | _
    · rw [if_neg (by simp)]
      exact .conflict hphase hinserted rfl
    · refine .insert hphase hinserted ?_
      split_ifs
      · exact .inl rfl
      · exact .inr rfl

theorem logEvent_effect {p : Pending} (hphase : call.phase = .finishing p) :
    Effect platform registryId db call db (logEvent platform env call p) := by
  unfold logEvent
  split
  · exact .fail _
  · rename_i event hevent
    exact .log hphase (auditEvent_outcome hevent)

theorem report_effect {p : Logged} {reads : Reads} (hphase : call.phase = .reporting p reads) :
    Effect platform registryId db call db
      (DurableRegistry.report platform registryId env db call p reads) := by
  unfold DurableRegistry.report
  split
  · split_ifs
    · exact .fail _
    · exact .report hphase
  · split
    · exact .fail _
    · exact .answer hphase rfl

theorem advance_effect (h : advance platform registryId mode env db call = some (db', call')) :
    Effect platform registryId db call db' call' := by
  unfold advance at h
  split at h <;> rename_i hphase
  · cases h
    exact begin_effect hphase
  · cases h
    exact check_effect hphase
  · simp only [Option.some.injEq] at h
    have he : Effect platform registryId db call (runInsert platform mode env db call _).1
        (runInsert platform mode env db call _).2 := runInsert_effect hphase
    rwa [h] at he
  · cases h
    split_ifs
    · exact .fail _
    · exact .describe hphase
  · cases h
    exact logEvent_effect hphase
  · split_ifs at h
    · cases h
      exact .fail _
    · cases h
      exact .append hphase
  · split_ifs at h
    · cases h
      exact .fail _
    · cases h
      exact .trim mode hphase
  · cases h
    exact report_effect hphase
  · cases h
  · cases h

/-! ## What a step keeps -/

structure Database.Within (db db' : Database) : Prop where
  used : db.usedJtis ⊆ db'.usedJtis
  revoked : db.revokedJtis ⊆ db'.revokedJtis
  keys : db.revokedKeyIds ⊆ db'.revokedKeyIds

theorem Database.Within.refl (db : Database) : db.Within db :=
  ⟨List.Subset.refl _, List.Subset.refl _, List.Subset.refl _⟩

theorem Recorded.mono {m : Mutation} (h : db.Within db') (hm : Recorded platform db m) :
    Recorded platform db' m := by
  unfold Recorded at hm ⊢
  split at hm
  · exact h.used hm
  · exact h.revoked hm
  · exact h.keys hm

theorem subset_insertKey (keys : List JsString) (key : JsString) :
    keys ⊆ (insertKey keys key).1 := by
  unfold insertKey
  split_ifs
  · exact List.Subset.refl _
  · exact List.subset_append_left _ _

theorem mem_insertKey (keys : List JsString) (key : JsString) : key ∈ (insertKey keys key).1 := by
  unfold insertKey
  split_ifs with hmem
  · exact hmem
  · exact List.mem_append_right _ List.mem_cons_self

theorem insert_within (m : Mutation) : db.Within (insert platform db m).1 := by
  unfold insert
  split
  · exact ⟨subset_insertKey _ _, List.Subset.refl _, List.Subset.refl _⟩
  · exact ⟨List.Subset.refl _, subset_insertKey _ _, List.Subset.refl _⟩
  · exact ⟨List.Subset.refl _, List.Subset.refl _, subset_insertKey _ _⟩

theorem insert_recorded (m : Mutation) : Recorded platform (insert platform db m).1 m := by
  unfold Recorded insert
  split <;> exact mem_insertKey _ _

/-- The row of a token is new to its first use alone. -/
theorem insert_fresh {m : Mutation} (haction : m.action = .markUsed)
    (h : (insert platform db m).2 = true) :
    cleanJti platform.toPlatform m.input.jti ∉ db.usedJtis := by
  simp only [insert, haction, insertUsed, insertKey] at h
  split_ifs at h with hmem
  exact hmem

theorem insert_revocation {m : Mutation} (haction : m.action ≠ .markUsed) :
    (insert platform db m).2 = true := by
  unfold insert
  split
  · rename_i h
    exact absurd h haction
  · rfl
  · rfl

theorem trimAudit_within (mode : StorageMode) (db : Database) : db.Within (trimAudit mode db) := by
  unfold trimAudit
  split_ifs
  · exact .refl db
  · exact ⟨List.Subset.refl _, List.Subset.refl _, List.Subset.refl _⟩

theorem Effect.within (h : Effect platform registryId db call db' call') : db.Within db' := by
  cases h with
  | insert | conflict => exact insert_within _
  | append => exact ⟨List.Subset.refl _, List.Subset.refl _, List.Subset.refl _⟩
  | trim => exact trimAudit_within _ _
  | _ => exact .refl _

theorem Effect.mutation (h : Effect platform registryId db call db' call') :
    call'.mutation = call.mutation := by
  cases h <;> rfl

/-- An answer that is known, and what the call has left in the database. -/
structure Settled (platform : Platform) (db : Database) (m : Mutation) (outcome : Outcome) :
    Prop where
  recorded : outcome = .accepted → idErrors platform m = [] ∧ Recorded platform db m
  answered : m.action ≠ .markUsed → idErrors platform m = [] → outcome = .accepted

def Phase.Fits (platform : Platform) (db : Database) (m : Mutation) : Phase → Prop
  | .checking _ _ => m.action = .markUsed ∧ idErrors platform m = []
  | .inserting p => idErrors platform m = [] ∧ p.outcome = .accepted
  | .describing p | .finishing p => Settled platform db m p.outcome
  | .logging p | .trimming p | .reporting p _ => Settled platform db m p.event.outcome
  | .returned result => Settled platform db m result.event.outcome
  | .called | .failed _ => True

theorem Settled.mono {m : Mutation} {outcome : Outcome} (h : Settled platform db m outcome)
    (hw : db.Within db') : Settled platform db' m outcome :=
  ⟨fun ha => ⟨(h.recorded ha).1, (h.recorded ha).2.mono hw⟩, h.answered⟩

theorem Phase.Fits.mono {m : Mutation} {phase : Phase} (h : phase.Fits platform db m)
    (hw : db.Within db') : phase.Fits platform db' m := by
  cases phase with
  | called | failed => trivial
  | checking | inserting => exact h
  | _ => exact Settled.mono h hw

theorem Phase.Fits.settled {m : Mutation} {phase : Phase} (h : phase.Fits platform db m)
    {outcome : Outcome} (ho : phase.settled = some outcome) : Settled platform db m outcome := by
  cases phase with
  | called | failed | checking | inserting => cases ho
  | _ =>
    simp only [Phase.settled, Option.some.injEq] at ho
    exact ho ▸ h

def Own (platform : Platform) (db : Database) (call : Call) : Prop :=
  call.phase.Fits platform db call.mutation

theorem Own.step (h : Own platform db call)
    (he : Effect platform registryId db call db' call') : Own platform db' call' := by
  unfold Own at h
  cases he with
  | fail => trivial
  | reject phase errors outcome =>
    exact ⟨fun ha => (by simp [outcome] at ha), fun _ herrors => absurd herrors errors⟩
  | take phase errors action => exact ⟨action, errors⟩
  | revoke phase errors action outcome => exact ⟨errors, outcome⟩
  | query q phase =>
    rw [phase] at h
    exact h
  | pass phase read decided outcome =>
    rw [phase] at h
    exact ⟨h.2, outcome⟩
  | refuse phase outcome =>
    rw [phase] at h
    exact ⟨fun ha => absurd ha outcome, fun haction => absurd h.1 haction⟩
  | insert phase inserted next =>
    rw [phase] at h
    have hsettled : Settled platform (insert platform db call.mutation).1 call.mutation _ :=
      ⟨fun _ => ⟨h.1, insert_recorded _⟩, fun _ _ => h.2⟩
    rcases next with rfl | rfl
    · exact hsettled
    · exact hsettled
  | conflict phase inserted outcome =>
    refine ⟨fun ha => (by simp [outcome] at ha), fun haction => ?_⟩
    have hinserted : (insert platform db call.mutation).2 = true := insert_revocation haction
    exact absurd (inserted.symm.trans hinserted) (by simp)
  | describe phase | report phase =>
    rw [phase] at h
    exact h
  | log phase same | answer phase same =>
    rw [phase] at h
    unfold Own
    simp only [Call.to, Phase.Fits, same]
    exact h
  | append phase =>
    rw [phase] at h
    exact Settled.mono h ⟨List.Subset.refl _, List.Subset.refl _, List.Subset.refl _⟩
  | trim mode phase =>
    rw [phase] at h
    exact Settled.mono h (trimAudit_within mode db)

/-! ## A revocation that is there -/

theorem mem_arrayFromSet {values : List JsString} {s : JsString} (hs : trim s = s) (hne : s ≠ [])
    (h : s ∈ values) : s ∈ arrayFromSet values :=
  SortedSet.mem_ofList.2 (List.mem_filter.2 ⟨List.mem_map.2 ⟨s, h, hs⟩, by simpa⟩)

theorem Reads.sets_revoked {reads : Reads} {sets : RegistrySets} (h : reads.sets = some sets) :
    (∀ jtis ∈ reads.revokedJtis, sets.revokedJtis = arrayFromSet jtis)
      ∧ ∀ keyIds ∈ reads.revokedKeyIds, sets.revokedKeyIds = arrayFromSet keyIds := by
  obtain ⟨used, -, h⟩ := Option.bind_eq_some_iff.1 h
  obtain ⟨jtis, hjtis, h⟩ := Option.bind_eq_some_iff.1 h
  obtain ⟨keyIds, hkeyIds, h⟩ := Option.bind_eq_some_iff.1 h
  obtain ⟨count, -, h⟩ := Option.bind_eq_some_iff.1 h
  cases h
  simp [hjtis, hkeyIds]

theorem Reads.sets_complete {reads : Reads} {sets : RegistrySets} (h : reads.sets = some sets) :
    reads.revokedJtis.isSome ∧ reads.revokedKeyIds.isSome := by
  obtain ⟨used, -, h⟩ := Option.bind_eq_some_iff.1 h
  obtain ⟨jtis, hjtis, h⟩ := Option.bind_eq_some_iff.1 h
  obtain ⟨keyIds, hkeyIds, h⟩ := Option.bind_eq_some_iff.1 h
  simp [hjtis, hkeyIds]

/-- A decision that accepts has found neither the token nor the key among the revoked ones. -/
theorem decideUse_accepted {sets : RegistrySets} {m : Mutation} {nowMs : JsNumber} {p : Pending}
    (h : decideUse platform registryId sets m nowMs = .ok p) (ha : p.outcome = .accepted)
    (haction : m.action = .markUsed) (hids : idErrors platform m = []) :
    cleanJti platform.toPlatform m.input.jti ∉ setFromIterable sets.revokedJtis
      ∧ cleanKeyId m.input.keyId ∉ setFromIterable sets.revokedKeyIds := by
  have herrors := (decideUse_outcome h).1 ha
  obtain ⟨registry, hr, h⟩ := bind_eq_ok.1 h
  obtain ⟨decision, hd, h⟩ := bind_eq_ok.1 h
  cases h
  obtain ⟨checkedAt, -, hr⟩ := bind_eq_ok.1 hr
  obtain ⟨fresh, -, hr⟩ := bind_eq_ok.1 hr
  cases hr
  simp only [idErrors, haction, List.append_eq_nil_iff, ite_eq_right_iff, List.cons_ne_self,
    imp_false] at hids
  have hkey : cleanLabel (some (cleanKeyId m.input.keyId)) = cleanKeyId m.input.keyId :=
    trim_of_matchesKeyId (cleanKeyId_matches hids.1)
  have hjti : cleanLabel (some (cleanJti platform.toPlatform m.input.jti))
      = cleanJti platform.toPlatform m.input.jti :=
    trim_of_matchesJti (cleanJti_matches hids.2)
  obtain ⟨-, hrevoked, htoken, -⟩ := (verify_eq_nil hd).1 herrors
  rw [hkey] at hrevoked
  rw [hjti] at htoken
  exact ⟨fun hmem => htoken ⟨hids.2, hmem⟩, fun hmem => hrevoked ⟨hids.1, hmem⟩⟩

/-- The call has read what the revocation has left. -/
theorem decideUse_revoked {r : Mutation} {reads : Reads} {sets : RegistrySets} {nowMs : JsNumber}
    {p : Pending} (hcall : call.mutation.action = .markUsed ∧ idErrors platform call.mutation = [])
    (hphase : call.phase = .checking nowMs reads) (hread : reads.sets = some sets)
    (hdecided : decideUse platform registryId sets call.mutation nowMs = .ok p)
    (hr : Revokes platform r call.mutation) (hmissed : ¬ Missed platform r call) :
    p.outcome ≠ .accepted := by
  intro ha
  obtain ⟨htoken, hkey⟩ := decideUse_accepted hdecided ha hcall.1 hcall.2
  obtain ⟨hjtis, hkeyIds⟩ := Reads.sets_revoked hread
  obtain ⟨hsome, hsome'⟩ := Reads.sets_complete hread
  obtain ⟨jtis, hj⟩ := Option.isSome_iff_exists.1 hsome
  obtain ⟨keyIds, hk⟩ := Option.isSome_iff_exists.1 hsome'
  have hids := hcall.2
  simp only [idErrors, hcall.1, List.append_eq_nil_iff, ite_eq_right_iff, List.cons_ne_self,
    imp_false] at hids
  simp only [Missed, hphase] at hmissed
  unfold Revokes at hr
  split at hr
  · exact hr
  · rename_i haction
    rw [haction] at hmissed
    have hmem : cleanJti platform.toPlatform call.mutation.input.jti ∈ jtis := by
      by_contra hn
      exact hmissed ⟨jtis, hj, hr.2 ▸ hn⟩
    have htrim := trim_of_matchesJti (cleanJti_matches hids.2)
    rw [hjtis jtis hj, mem_setFromIterable] at htoken
    exact htoken ⟨hids.2, _, mem_arrayFromSet htrim hids.2 hmem, htrim⟩
  · rename_i haction
    rw [haction] at hmissed
    have hmem : cleanKeyId call.mutation.input.keyId ∈ keyIds := by
      by_contra hn
      exact hmissed ⟨keyIds, hk, hr.2 ▸ hn⟩
    have htrim := trim_of_matchesKeyId (cleanKeyId_matches hids.1)
    rw [hkeyIds keyIds hk, mem_setFromIterable] at hkey
    exact hkey ⟨hids.1, _, mem_arrayFromSet htrim hids.1 hmem, htrim⟩

theorem Reads.query_missed {r : Mutation} {reads : Reads} {nowMs : JsNumber} (q : Query)
    (hrecorded : Recorded platform db r)
    (h : ¬ Missed platform r (call.to (.checking nowMs reads))) :
    ¬ Missed platform r (call.to (.checking nowMs (reads.query db q))) := by
  unfold Recorded at hrecorded
  simp only [Missed, Call.to] at h ⊢
  split at hrecorded <;> rename_i haction <;> rw [haction] at h
  · exact h
  · rintro ⟨jtis, hj, hn⟩
    cases q
    case revokedJtis =>
      rcases hold : reads.revokedJtis with _ | old
      · simp only [Reads.query, hold, Option.none_or, Option.mem_def, Option.some.injEq] at hj
        exact hn (hj ▸ hrecorded)
      · simp only [Reads.query, hold, Option.some_or] at hj
        exact h ⟨jtis, hold ▸ hj, hn⟩
    all_goals exact h ⟨jtis, hj, hn⟩
  · rintro ⟨keyIds, hk, hn⟩
    cases q
    case revokedKeys =>
      rcases hold : reads.revokedKeyIds with _ | old
      · simp only [Reads.query, hold, Option.none_or, Option.mem_def, Option.some.injEq] at hk
        exact hn (hk ▸ hrecorded)
      · simp only [Reads.query, hold, Option.some_or] at hk
        exact h ⟨keyIds, hold ▸ hk, hn⟩
    all_goals exact h ⟨keyIds, hk, hn⟩

/-- A call that has not missed a revocation that is there does not miss it later. -/
theorem Effect.not_missed {r : Mutation} (he : Effect platform registryId db call db' call')
    (hown : Own platform db call) (hr : Revokes platform r call.mutation)
    (hrecorded : Recorded platform db r) (h : ¬ Missed platform r call) :
    ¬ Missed platform r call' := by
  unfold Own at hown
  cases he with
  | take phase =>
    intro hm
    simp only [Missed, Call.to, Reads.none] at hm
    split at hm
    · exact hm
    · obtain ⟨_, hm, -⟩ := hm
      cases hm
    · obtain ⟨_, hm, -⟩ := hm
      cases hm
  | revoke phase errors action =>
    unfold Revokes at hr
    split at hr
    · exact fun _ => hr
    · exact absurd hr.1 action
    · exact absurd hr.1 action
  | query q phase =>
    refine Reads.query_missed q hrecorded ?_
    rw [Call.to, ← phase]
    exact h
  | pass phase read decided outcome =>
    rw [phase] at hown
    exact absurd outcome (decideUse_revoked hown phase read decided hr h)
  | insert phase | conflict phase => exact absurd (by simp [Missed, phase]) h
  | _ => exact id

/-- An answer is accepted by the insert alone. -/
theorem Effect.accepted (he : Effect platform registryId db call db' call')
    (h : call'.phase.settled = some .accepted) :
    call.phase.settled = some .accepted
      ∨ (∃ p, call.phase = .inserting p)
        ∧ (DurableRegistry.insert platform db call.mutation).2 = true := by
  cases he with
  | fail | take | revoke | query | pass => cases h
  | reject phase errors outcome => simp [Call.to, Phase.settled, outcome] at h
  | refuse phase outcome => simp [Call.to, Phase.settled, outcome] at h
  | conflict phase inserted outcome => simp [Call.to, Phase.settled, outcome] at h
  | insert phase inserted => exact .inr ⟨⟨_, phase⟩, inserted⟩
  | describe phase | append phase | trim _ phase | report phase =>
    rw [phase]
    exact .inl h
  | log phase same | answer phase same =>
    simp only [Call.to, Phase.settled, same] at h
    rw [phase]
    exact .inl h

/-! ## Every run -/

/-- The use of a token, known to be accepted. -/
def Wins (call : Call) : Prop :=
  call.mutation.action = .markUsed ∧ call.phase.settled = some .accepted

structure Apart (platform : Platform) (call other : Call) : Prop where
  once : Wins call → Wins other → cleanJti platform.toPlatform call.mutation.input.jti
    ≠ cleanJti platform.toPlatform other.mutation.input.jti
  seen : call.Completed → Revokes platform call.mutation other.mutation →
    ¬ Missed platform call.mutation other
  seen' : other.Completed → Revokes platform other.mutation call.mutation →
    ¬ Missed platform other.mutation call

theorem Apart.symm {other : Call} (h : Apart platform call other) : Apart platform other call :=
  ⟨fun ho hc he => h.once hc ho he.symm, h.seen', h.seen⟩

theorem Own.missed {r : Mutation} (h : Own platform db call) (hm : Missed platform r call) :
    idErrors platform call.mutation = [] := by
  unfold Own at h
  unfold Missed at hm
  split at hm <;> rename_i hphase
  · rw [hphase] at h
    exact h.2
  · rw [hphase] at h
    exact h.1
  · exact hm.elim

/-- A completed revocation of what a well-formed call uses is in the database. -/
theorem Own.revoked {r : Call} {m : Mutation} (h : Own platform db r) (hr : r.Completed)
    (hrevokes : Revokes platform r.mutation m) (hids : idErrors platform m = []) :
    Recorded platform db r.mutation := by
  obtain ⟨result, hphase⟩ := hr
  unfold Own at h
  rw [hphase] at h
  have hrecorded : r.mutation.action ≠ .markUsed → idErrors platform r.mutation = [] →
      Recorded platform db r.mutation :=
    fun haction hr => (h.recorded (h.answered haction hr)).2
  unfold Revokes at hrevokes
  split at hrevokes
  · exact hrevokes.elim
  · rename_i haction
    obtain ⟨hm, hjti⟩ := hrevokes
    simp only [idErrors, hm, ← hjti, List.append_eq_nil_iff] at hids
    exact hrecorded (by simp [haction]) (by simpa [idErrors, haction] using hids.2)
  · rename_i haction
    obtain ⟨hm, hkey⟩ := hrevokes
    simp only [idErrors, hm, ← hkey, List.append_eq_nil_iff] at hids
    exact hrecorded (by simp [haction]) (by simpa [idErrors, haction] using hids.1)

theorem Effect.apart {other : Call} (he : Effect platform registryId db call db' call')
    (hown : Own platform db call) (hother : Own platform db other) (h : Apart platform call other)
    (hmeet : ¬ (call'.Completed ∧ Revokes platform call'.mutation other.mutation
      ∧ Missed platform call'.mutation other)) : Apart platform call' other where
  once := by
    rintro ⟨haction, ha⟩ hwins
    rw [he.mutation] at haction ⊢
    rcases he.accepted ha with hsettled | ⟨-, hinserted⟩
    · exact h.once ⟨haction, hsettled⟩ hwins
    · intro hjti
      have hrecorded := (Phase.Fits.settled hother hwins.2).recorded rfl
      simp only [Recorded, hwins.1] at hrecorded
      exact insert_fresh haction hinserted (hjti ▸ hrecorded.2)
  seen hc hr hm := hmeet ⟨hc, hr, hm⟩
  seen' hc hr hm := by
    have hids := (hown.step he).missed hm
    have hrecorded := hother.revoked hc hr hids
    rw [he.mutation] at hr
    exact he.not_missed hown hr hrecorded (h.seen' hc hr) hm

def revocationRule (platform : Platform) (registryId : JsString) (mode : StorageMode) :
    Tasks.Rule (system platform registryId mode) (unmissed platform) where
  inv _ := True
  own := Own platform
  apart := Apart platform
  symm h := h.symm
  start _ _ := trivial
  start_apart _ _ _ _ :=
    ⟨fun h => (nomatch h.2), fun ⟨_, h⟩ => (nomatch h), fun _ _ hm => hm⟩
  advance _ h hnext _ := ⟨trivial, h.step (advance_effect hnext)⟩
  frame _ h hu hapart hnext _ hmeet :=
    have he := advance_effect hnext
    ⟨hu.mono he.within, he.apart h hu hapart hmeet⟩

/-- The calls that use the token, and that the revocation revokes, have seen it, and none of them is
accepted. -/
def barredRule (platform : Platform) (registryId : JsString) (mode : StorageMode) (r : Mutation)
    (jti : JsString) :
    Tasks.Rule (system platform registryId mode) (unmissed platform) where
  inv db := Recorded platform db r
  own db call := Own platform db call ∧ (Revokes platform r call.mutation →
    cleanJti platform.toPlatform call.mutation.input.jti = jti →
      ¬ Missed platform r call ∧ call.phase.settled ≠ some .accepted)
  apart _ _ := True
  symm _ := trivial
  start _ _ := ⟨trivial, fun _ _ => ⟨id, nofun⟩⟩
  start_apart _ _ _ _ := trivial
  advance hi h hnext _ := by
    have he := advance_effect hnext
    refine ⟨hi.mono he.within, h.1.step he, fun hr hjti => ?_⟩
    rw [he.mutation] at hr hjti
    obtain ⟨hmissed, hsettled⟩ := h.2 hr hjti
    refine ⟨he.not_missed h.1 hr hi hmissed, fun ha => ?_⟩
    rcases he.accepted ha with ha | ⟨⟨p, hphase⟩, -⟩
    · exact hsettled ha
    · exact hmissed (by simp [Missed, hphase])
  frame _ _ hu _ hnext _ _ := ⟨⟨hu.1.mono (advance_effect hnext).within, hu.2⟩, trivial⟩

theorem Call.Accepted.wins (h : call.Accepted) : Wins call := by
  obtain ⟨haction, result, hphase, ha⟩ := h
  exact ⟨haction, by simp [hphase, Phase.settled, ha]⟩

theorem Revokes.uses {r m : Mutation} (h : Revokes platform r m) :
    r.action ≠ .markUsed ∧ m.action = .markUsed := by
  unfold Revokes at h
  split at h
  · exact h.elim
  · rename_i haction
    exact ⟨by simp [haction], h.1⟩
  · rename_i haction
    exact ⟨by simp [haction], h.1⟩

section Run

variable {db₀ : Database} {w w' : Tasks.World Database Call}

theorem usedOnce (h : Tasks.Run (system platform registryId mode) (unmissed platform) db₀ w) :
    UsedOnce platform w := by
  intro i j call hcall other hother ha ho he
  by_contra hij
  have hw := (revocationRule platform registryId mode).holds trivial h
  have hapart := (revocationRule platform registryId mode).apart_get hw.apart hcall hother hij
  exact hapart.once ha.wins ho.wins he

/-- What stands in a world with a completed revocation has seen it. -/
theorem seen_of_completed (hw : (revocationRule platform registryId mode).Holds w) {r u : Call}
    (hr : r ∈ w.tasks) (hu : u ∈ w.tasks) (hc : r.Completed)
    (hrevokes : Revokes platform r.mutation u.mutation) : ¬ Missed platform r.mutation u := by
  obtain ⟨i, hi⟩ := List.getElem?_of_mem hr
  obtain ⟨j, hj⟩ := List.getElem?_of_mem hu
  refine ((revocationRule platform registryId mode).apart_get hw.apart hi hj ?_).seen hc hrevokes
  rintro rfl
  rw [hi, Option.some.injEq] at hj
  exact hrevokes.uses.1 (hj ▸ hrevokes.uses.2)

theorem revocationFirst
    (h : Tasks.Run (system platform registryId mode) (unmissed platform) db₀ w)
    (h' : Relation.ReflTransGen
      (Tasks.Step (system platform registryId mode) (unmissed platform)) w w') :
    RevocationFirst platform w w' := by
  intro r hr call hcall hcompleted hrevokes hunused haccepted
  have hw := (revocationRule platform registryId mode).holds trivial h
  have hcall' := (Tasks.Rule.Holds.steps _ hw h').own call hcall
  have hids := ((hcall'.settled haccepted.wins.2).recorded rfl).1
  have hrecorded := (hw.own r hr).revoked hcompleted hrevokes hids
  have hbarred : (barredRule platform registryId mode r.mutation
      (cleanJti platform.toPlatform call.mutation.input.jti)).Holds w := by
    refine ⟨hrecorded, fun u hu => ⟨hw.own u hu, fun hru hjti => ⟨?_, fun ha => hunused ?_⟩⟩,
      List.pairwise_of_forall fun _ _ => trivial⟩
    · exact seen_of_completed hw hr hu hcompleted hru
    · have hused := ((Phase.Fits.settled (hw.own u hu) ha).recorded rfl).2
      rw [Recorded, hru.uses.2] at hused
      exact hjti ▸ hused
  obtain ⟨-, hbar⟩ := (Tasks.Rule.Holds.steps _ hbarred h').own call hcall
  exact (hbar hrevokes rfl).2 haccepted.wins.2

/-- While no revocation completes between the reads and the insert of a use, revocation comes
first, and each token is used once. -/
theorem revocationFirst_of_unmissed (platform : Platform) (registryId : JsString)
    (mode : StorageMode) (db₀ : Database) (w w' : Tasks.World Database Call)
    (h : Tasks.Run (system platform registryId mode) (unmissed platform) db₀ w)
    (h' : Relation.ReflTransGen
      (Tasks.Step (system platform registryId mode) (unmissed platform)) w w') :
    RevocationFirst platform w w' ∧ UsedOnce platform w' :=
  ⟨revocationFirst h h', usedOnce (h.trans h')⟩

end Run

/-! ## A use and a revocation of one token -/

instance (call : Call) : Decidable call.Completed :=
  match h : call.phase with
  | .returned result => .isTrue ⟨result, h⟩
  | .called | .checking _ _ | .inserting _ | .describing _ | .finishing _ | .logging _
  | .trimming _ | .reporting _ _ | .failed _ => .isFalse fun ⟨_, h'⟩ => by simp [h] at h'

instance (r m : Mutation) : Decidable (Revokes platform r m) :=
  match h : r.action with
  | .markUsed => .isFalse (by simp [Revokes, h])
  | .revokeToken => decidable_of_iff (m.action = .markUsed
    ∧ cleanJti platform.toPlatform r.input.jti = cleanJti platform.toPlatform m.input.jti)
    (by simp [Revokes, h])
  | .revokeKey => decidable_of_iff (m.action = .markUsed
    ∧ cleanKeyId r.input.keyId = cleanKeyId m.input.keyId) (by simp [Revokes, h])

instance (r : Mutation) (reads : Reads) (nowMs : JsNumber) (m : Mutation) :
    Decidable (Missed platform r ⟨m, .checking nowMs reads⟩) :=
  match h : r.action with
  | .markUsed => .isFalse (by simp [Missed, h])
  | .revokeToken => decidable_of_iff
    (∃ jtis ∈ reads.revokedJtis, cleanJti platform.toPlatform r.input.jti ∉ jtis)
    (by simp [Missed, h])
  | .revokeKey => decidable_of_iff
    (∃ keyIds ∈ reads.revokedKeyIds, cleanKeyId r.input.keyId ∉ keyIds) (by simp [Missed, h])

instance (r : Mutation) : ∀ call : Call, Decidable (Missed platform r call)
  | ⟨_, .checking _ _⟩ => inferInstance
  | ⟨_, .inserting _⟩ => .isTrue trivial
  | ⟨_, .called⟩ | ⟨_, .describing _⟩ | ⟨_, .finishing _⟩ | ⟨_, .logging _⟩ | ⟨_, .trimming _⟩
  | ⟨_, .reporting _ _⟩ | ⟨_, .returned _⟩ | ⟨_, .failed _⟩ => .isFalse id

def tablePlatform : Platform where
  toPlatform := PosRegistry.tablePlatform
  hashSets used revoked _ :=
    (([(([], []), "4ad092cd5537275e"), (([], [tokenA]), "116136d3594f2e6b"),
      (([tokenA], []), "682c0074c0a6731b"),
      (([tokenA], [tokenA]), "1297322470697180")].lookup (used, revoked)).map js).getD []

/-- What a call is, and what it has answered if it has returned. -/
structure Report where
  action : MutationAction
  jti : JsString
  answer : Option Outcome
deriving DecidableEq

def reports (w : Tasks.World Database Call) : List Report :=
  w.tasks.map fun call => {
    action := call.mutation.action
    jti := cleanJti tablePlatform.toPlatform call.mutation.input.jti
    answer := match call.phase with
      | .returned result => some result.event.outcome
      | _ => none }

theorem reports_returned {w : Tasks.World Database Call} {report : Report} {outcome : Outcome}
    (h : report ∈ reports w) (ho : report.answer = some outcome) :
    ∃ call ∈ w.tasks, call.mutation.action = report.action
      ∧ cleanJti tablePlatform.toPlatform call.mutation.input.jti = report.jti
      ∧ ∃ result, call.phase = .returned result ∧ result.event.outcome = outcome := by
  obtain ⟨call, hcall, rfl⟩ := List.mem_map.1 h
  refine ⟨call, hcall, rfl, rfl, ?_⟩
  simp only at ho
  split at ho
  · rename_i result hphase
    exact ⟨result, hphase, Option.some.inj ho⟩
  · cases ho

/-- A use of a token, and a revocation of it. -/
def useAndRevoke : Tasks.World Database Call :=
  ⟨.empty, [start ⟨.markUsed, useOf tokenA⟩, start ⟨.revokeToken, useOf tokenA⟩]⟩

theorem useAndRevoke_run {c : Tasks.Condition Database Call Mutation} (hc : ∀ m, c.accepts m)
    (hmeet : ∀ m u, c.meet (start m) u) :
    Tasks.Run (system tablePlatform POS_AGID_SECURE_REGISTRY_ID .postgres) c .empty useAndRevoke :=
  .tail (.single (.start (hc _) fun _ _ => hmeet _ _)) (.start (hc _) fun _ _ => hmeet _ _)

def steps (i n : ℕ) : List (Tasks.Move Mutation Env) :=
  List.replicate n (.advance i ⟨envAt 0, .used⟩)

/-- The four queries of a call and what it does with them. -/
def queries (i : ℕ) : List (Tasks.Move Mutation Env) :=
  [.used, .revokedJtis, .revokedKeys, .auditCount, .used].map fun q => .advance i ⟨envAt 0, q⟩

/-- The revocation completes before the queries of the use. -/
theorem revocationFirst_of_unmissed_seen : ∃ w w',
    (RevocationFirst tablePlatform w w' ∧ UsedOnce tablePlatform w')
      ∧ reports w = [⟨.markUsed, tokenA, none⟩, ⟨.revokeToken, tokenA, some .accepted⟩]
      ∧ reports w' = [⟨.markUsed, tokenA, some .rejected⟩,
        ⟨.revokeToken, tokenA, some .accepted⟩] := by
  let : DecidablePred (unmissed tablePlatform).accepts := fun _ => .isTrue trivial
  let : DecidableRel (unmissed tablePlatform).keeps := fun _ _ => .isTrue trivial
  let : DecidableRel (unmissed tablePlatform).meet := fun _ _ => inferInstanceAs (Decidable (¬ _))
  obtain ⟨w, w', hw, hw', hreports⟩ := (useAndRevoke_run (c := unmissed tablePlatform)
    (fun _ => trivial) fun m u h => nomatch h.1.choose_spec).playTwice
    (fun w w' => (reports w, reports w'))
    (a := ([⟨.markUsed, tokenA, none⟩, ⟨.revokeToken, tokenA, some .accepted⟩],
      [⟨.markUsed, tokenA, some .rejected⟩, ⟨.revokeToken, tokenA, some .accepted⟩]))
    (steps 1 5 ++ steps 0 1 ++ queries 1) (queries 0 ++ steps 0 3 ++ queries 0)
    (by decide +kernel)
  exact ⟨w, w', revocationFirst_of_unmissed _ _ _ _ w w' hw hw', congrArg Prod.fst hreports,
    congrArg Prod.snd hreports⟩

/-- The use has made its four queries when the revocation begins, and runs its insert when the
revocation has completed. -/
theorem not_revocationFirst :
    ¬ ∀ w w',
      Tasks.Run (system tablePlatform POS_AGID_SECURE_REGISTRY_ID .postgres) .free .empty w →
      Relation.ReflTransGen
        (Tasks.Step (system tablePlatform POS_AGID_SECURE_REGISTRY_ID .postgres) .free) w w' →
      RevocationFirst tablePlatform w w' ∧ UsedOnce tablePlatform w' := by
  intro h
  obtain ⟨w, w', hw, hw', hreports⟩ := (useAndRevoke_run (c := .free) (fun _ => trivial)
    fun _ _ => trivial).playTwice (fun w w' => (w.store.usedJtis, reports w, reports w'))
    (a := ([], [⟨.markUsed, tokenA, none⟩, ⟨.revokeToken, tokenA, some .accepted⟩],
      [⟨.markUsed, tokenA, some .accepted⟩, ⟨.revokeToken, tokenA, some .accepted⟩]))
    (steps 0 1 ++ queries 0 ++ steps 1 5 ++ queries 1) (steps 0 4 ++ queries 0) (by decide +kernel)
  simp only [Prod.mk.injEq] at hreports
  obtain ⟨hused, hreports, hreports'⟩ := hreports
  have hrevoked : ⟨.revokeToken, tokenA, some .accepted⟩ ∈ reports w := by simp [hreports]
  have hmarked : ⟨.markUsed, tokenA, some .accepted⟩ ∈ reports w' := by simp [hreports']
  obtain ⟨revocation, hr, haction, hjti, result, hphase, -⟩ := reports_returned hrevoked rfl
  obtain ⟨call, hcall, haction', hjti', result', hphase', ha⟩ := reports_returned hmarked rfl
  refine (h w w' hw hw').1 revocation hr call hcall ⟨result, hphase⟩ ?_ ?_
    ⟨haction', result', hphase', ha⟩
  · simp only [Revokes, haction]
    exact ⟨haction', hjti.trans hjti'.symm⟩
  · simp [hused]

end Agid.DurableRegistry
