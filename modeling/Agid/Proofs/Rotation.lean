import Agid.Proofs.VeygritId

/-!
# Refresh tokens are used once

A refresh that finds its token consumed ends the family, and a family that has ended is never active
again.  So two presentations of one token end its family: the later one finds the token consumed by
the earlier one, or the family ended.
-/

namespace Agid.VeygritId

variable {S : Service} {past : Past} {w w' : World} {e : Event} {env : Env} {s s' : Store} {i : ℕ}
  {task task' : Task} {write : Write} {h familyRef : JsString}

/-! ## The store -/

/-- What a store keeps: tokens stay with their families and stay consumed, and families stay ended. -/
structure Grows (s s' : Store) : Prop where
  access : ∀ h token, s.access.get? h = some token → s'.access.get? h = some token
  refresh : ∀ h token, s.refreshTokens.get? h = some token →
    ∃ token', s'.refreshTokens.get? h = some token' ∧ token'.familyRef = token.familyRef
      ∧ token'.expiresAt = token.expiresAt ∧ (token.consumedAt ≠ none → token'.consumedAt ≠ none)
  families : ∀ familyRef family, s.families.get? familyRef = some family →
    ∃ family', s'.families.get? familyRef = some family' ∧ family'.familyRef = family.familyRef
      ∧ (family.status ≠ .active → family'.status ≠ .active)

theorem Grows.refl (s : Store) : Grows s s :=
  ⟨fun _ _ => id, fun _ token h => ⟨token, h, rfl, rfl, id⟩, fun _ family h => ⟨family, h, rfl, id⟩⟩

theorem Record.get?_set_new {α : Type} {r : Record JsString α} {k k' : JsString} {a b : α}
    (hnew : r.get? k = none) (hget : r.get? k' = some b) : (r.set k a).get? k' = some b := by
  rw [Record.get?_set_of_ne, hget]
  rintro rfl
  rw [hnew] at hget
  cases hget

/-- Fresh writes, of which none makes a family active again. -/
theorem apply_grows (fresh : write.Fresh s)
    (ends : ∀ familyRef status, write = .revokeFamily familyRef status → status ≠ .active) :
    Grows s (s.apply write) := by
  cases write with
  | saveTokenFamily new =>
    exact { Grows.refl s with
      families := fun ref family hfamily =>
        ⟨family, Record.get?_set_new fresh hfamily, rfl, id⟩ }
  | revokeFamily ref status =>
    simp only [Store.apply]
    split
    · rename_i family hfamily
      refine { Grows.refl s with families := fun ref' family' hfamily' => ?_ }
      simp only [Record.get?_set]
      split_ifs with href
      · subst href
        rw [hfamily] at hfamily'
        cases hfamily'
        exact ⟨_, rfl, rfl, fun _ => ends _ _ rfl⟩
      · exact ⟨family', hfamily', rfl, id⟩
    · exact .refl s
  | saveAccessToken new =>
    exact { Grows.refl s with
      access := fun h token htoken => Record.get?_set_new fresh htoken }
  | saveRefreshToken new =>
    exact { Grows.refl s with
      refresh := fun h token htoken =>
        ⟨token, Record.get?_set_new fresh htoken, rfl, rfl, id⟩ }
  | consumeRefreshToken tokenHash consumedAt replacementRef =>
    simp only [Store.apply]
    split
    · rename_i token hopen
      refine { Grows.refl s with refresh := fun h' token' htoken' => ?_ }
      simp only [Record.get?_set]
      split_ifs with hh
      · subst hh
        rw [Store.openRefreshToken, htoken'] at hopen
        cases (Option.filter_eq_some_iff.1 hopen).1
        exact ⟨_, rfl, rfl, rfl, fun _ => by simp [RefreshTokenRecord.consume]⟩
      · exact ⟨token', htoken', rfl, rfl, id⟩
    · exact .refl s
  | consumeAuthorizationCode =>
    simp only [Store.apply]
    split <;> exact ⟨fun _ _ => id, fun _ token h => ⟨token, h, rfl, rfl, id⟩,
      fun _ family h => ⟨family, h, rfl, id⟩⟩
  | _ => exact ⟨fun _ _ => id, fun _ token h => ⟨token, h, rfl, rfl, id⟩,
      fun _ family h => ⟨family, h, rfl, id⟩⟩

theorem Task.Allows.ends {status : FamilyStatus} (hallows : task.Allows (.revokeFamily familyRef status)) :
    status ≠ .active := by
  cases task with
  | refresh =>
    rintro rfl
    cases hallows
  | revoke =>
    rintro rfl
    cases hallows
  | revokeForClient =>
    rintro rfl
    cases hallows
  | _ => cases hallows

theorem Task.Allows.created {family : TokenFamily} (hallows : task.Allows (.saveTokenFamily family)) :
    family.status = .active := by
  cases task with
  | exchangeAuthorizationCode => exact hallows
  | _ => cases hallows

theorem next_grows (hnext : next S w e = some w') (drawn : Drawn S past w e) :
    Grows w.store w'.store := by
  rcases next_cases hnext with ⟨call, rfl, rfl⟩ | ⟨i, env, task, write, task', rfl, hi, ha, hw, rfl⟩
  · exact .refl _
  · rw [Drawn, hw] at drawn
    refine apply_grows drawn fun familyRef status hwrite => ?_
    subst hwrite
    exact (advance_allows ha).2.ends

/-! ## Calls -/

/-- The token that a refresh has read is that of the store. -/
def Known (s : Store) (h : JsString) (existing : RefreshTokenRecord) : Prop :=
  ∃ token, s.refreshTokens.get? h = some token ∧ token.familyRef = existing.familyRef
    ∧ token.expiresAt = existing.expiresAt

/-- A family that was read as ended has ended. -/
def Snapshot (s : Store) (familyRef : JsString) (family : TokenFamily) : Prop :=
  family.familyRef = familyRef ∧ ∃ current, s.families.get? familyRef = some current
    ∧ (family.status ≠ .active → current.status ≠ .active)

def Consumed (s : Store) (h : JsString) : Prop :=
  ∃ token, s.refreshTokens.get? h = some token ∧ token.consumedAt ≠ none

/-- The refresh has consumed its token. -/
def Rotated : Progress (ForClient RefreshPhase) → Prop
  | .running (.within (.consumed _ (some _) _)) => True
  | .running (.within (.accessSaved _)) => True
  | .returning (.ok _) => True
  | .answered (.ok _) => True
  | _ => False

theorem Known.grows {existing : RefreshTokenRecord} (hknown : Known s h existing)
    (hgrows : Grows s s') : Known s' h existing := by
  obtain ⟨token, htoken, hfamily, hexpires⟩ := hknown
  obtain ⟨token', htoken', hfamily', hexpires', -⟩ := hgrows.refresh h token htoken
  exact ⟨token', htoken', hfamily'.trans hfamily, hexpires'.trans hexpires⟩

theorem Snapshot.grows {family : TokenFamily} (hsnapshot : Snapshot s familyRef family)
    (hgrows : Grows s s') : Snapshot s' familyRef family := by
  obtain ⟨href, current, hcurrent, hended⟩ := hsnapshot
  obtain ⟨current', hcurrent', -, hended'⟩ := hgrows.families familyRef current hcurrent
  exact ⟨href, current', hcurrent', hended' ∘ hended⟩

theorem Consumed.grows (hconsumed : Consumed s h) (hgrows : Grows s s') : Consumed s' h := by
  obtain ⟨token, htoken, hconsumed⟩ := hconsumed
  obtain ⟨token', htoken', -, -, hconsumed'⟩ := hgrows.refresh h token htoken
  exact ⟨token', htoken', hconsumed' hconsumed⟩

structure Sound (S : Service) (s : Store) (task : Task) : Prop where
  token : ∀ input existing,
    task = .refresh input (.running (.within (.tokenRead (some existing)))) →
      Known s (S.sha256 input.refreshToken) existing
  family : ∀ input existing found,
    task = .refresh input (.running (.within (.familyRead existing found))) →
      Known s (S.sha256 input.refreshToken) existing
        ∧ ∀ family ∈ found, Snapshot s existing.familyRef family
  rotated : ∀ input p, task = .refresh input p → Rotated p →
    Consumed s (S.sha256 input.refreshToken)

theorem Sound.grows (hsound : Sound S s task) (hgrows : Grows s s') : Sound S s' task where
  token input existing htask := (hsound.token input existing htask).grows hgrows
  family input existing found htask := by
    obtain ⟨hknown, hfound⟩ := hsound.family input existing found htask
    exact ⟨hknown.grows hgrows, fun family hfamily => (hfound family hfamily).grows hgrows⟩
  rotated input p htask hp := (hsound.rotated input p htask hp).grows hgrows

theorem Sound.of_other (hother : ∀ input p, task ≠ .refresh input p) : Sound S s task :=
  ⟨fun _ _ h => absurd h (hother _ _), fun _ _ _ h => absurd h (hother _ _),
    fun _ _ h => absurd h (hother _ _)⟩

theorem Sound.of_call (S : Service) (s : Store) (call : Call) : Sound S s call.task := by
  refine ⟨fun _ _ h => ?_, fun _ _ _ h => ?_, fun _ p h hp => ?_⟩
  · cases call <;> cases h
  · cases call <;> cases h
  · cases call <;> cases h
    cases hp

theorem Task.Same.refresh {input : RefreshInput} {p : Progress (ForClient RefreshPhase)}
    (hsame : task.Same (.refresh input p)) : ∃ p, task = .refresh input p := by
  cases task with
  | refresh input' p' =>
    cases hsame
    exact ⟨p', rfl⟩
  | _ => cases hsame

/-- A step of a refresh. -/
theorem refresh_cases {input : RefreshInput} {p : Progress (ForClient RefreshPhase)}
    (ha : (Task.refresh input p).advance S env s = some (write, task')) :
    ∃ p', task' = .refresh input p'
      ∧ ((∃ phase, p = .running phase ∧ Refreshes S env s input phase write p')
        ∨ ∃ result, p = .returning result ∧ write = .nothing ∧ p' = .answered result) := by
  obtain ⟨⟨write, p'⟩, hp, heq⟩ := Option.map_eq_some_iff.1 ha
  cases heq
  refine ⟨p', rfl, ?_⟩
  rcases Progress.advance_cases hp with ⟨phase, rfl, hstep⟩ | hreturn
  · exact .inl ⟨phase, rfl, refreshes hstep⟩
  · exact .inr hreturn

theorem openRefreshToken_eq_some {token : RefreshTokenRecord}
    (hopen : s.openRefreshToken h = some token) :
    s.refreshTokens.get? h = some token ∧ token.consumedAt = none := by
  obtain ⟨htoken, hp⟩ := Option.filter_eq_some_iff.1 hopen
  exact ⟨htoken, of_decide_eq_true hp⟩

theorem consumed_apply {token : RefreshTokenRecord} (hopen : s.openRefreshToken h = some token)
    (consumedAt : ℤ) (replacementRef : JsString) :
    Consumed (s.apply (.consumeRefreshToken h consumedAt replacementRef)) h := by
  simp only [Store.apply, hopen]
  exact ⟨_, Record.get?_set_self _ _ _, by simp [RefreshTokenRecord.consume]⟩

theorem Sound.advance (keyed : ∀ familyRef family, s.families.get? familyRef = some family →
      family.familyRef = familyRef) (hsound : Sound S s task)
    (ha : task.advance S env s = some (write, task')) (hgrows : Grows s (s.apply write)) :
    Sound S (s.apply write) task' := by
  by_cases hrefresh : ∃ input p, task = .refresh input p
  · obtain ⟨input, p, rfl⟩ := hrefresh
    obtain ⟨p', rfl, ⟨phase, rfl, hstep⟩ | ⟨result, rfl, rfl, rfl⟩⟩ := refresh_cases ha
    · cases hstep with
      | client =>
        refine ⟨fun _ existing h => ?_, fun _ _ _ h => (by cases h), fun _ _ h hp => ?_⟩
        · injection h with hinput hp
          injection hp with hp
          injection hp with hp
          injection hp with hp
          subst hinput
          exact ⟨existing, hp, rfl, rfl⟩
        · cases h
          cases hp
      | token existing =>
        refine ⟨fun _ _ h => (by cases h), fun _ _ found h => ?_, fun _ _ h hp => ?_⟩
        · cases h
          obtain ⟨token, htoken⟩ := hsound.token input existing rfl
          refine ⟨⟨token, htoken⟩, fun family hfamily => ?_⟩
          exact ⟨keyed _ family hfamily, family, hfamily, id⟩
        · cases h
          cases hp
      | rotated existing found family checked unconsumed =>
        refine ⟨fun _ _ h => (by cases h), fun _ _ _ h => (by cases h), fun _ _ h hp => ?_⟩
        cases h
        rcases hopen : s.openRefreshToken (S.sha256 input.refreshToken) with _ | token
        · rw [hopen] at hp
          cases hp
        · exact consumed_apply hopen _ _
      | access family consumed replacement issue same =>
        refine ⟨fun _ _ h => (by cases h), fun _ _ _ h => (by cases h), fun _ _ h hp => ?_⟩
        cases h
        exact (hsound.rotated input _ rfl trivial).grows hgrows
      | saved issue =>
        refine ⟨fun _ _ h => (by cases h), fun _ _ _ h => (by cases h), fun _ _ h hp => ?_⟩
        cases h
        exact (hsound.rotated input _ rfl trivial).grows hgrows
      | _ =>
        refine ⟨fun _ _ h => (by cases h), fun _ _ _ h => (by cases h), fun _ _ h hp => ?_⟩
        cases h
        cases hp
    · refine ⟨fun _ _ h => (by cases h), fun _ _ _ h => (by cases h), fun _ _ h hp => ?_⟩
      cases h
      cases result with
      | ok => exact hsound.rotated input _ rfl trivial
      | error => cases hp
  · refine .of_other fun input p h => ?_
    subst h
    obtain ⟨p, rfl⟩ := (advance_allows ha).1.refresh
    exact hrefresh ⟨input, p, rfl⟩

/-! ## A token and its family -/

/-- The token was consumed, or its family has ended. -/
def Spent (s : Store) (h : JsString) : Prop :=
  ∃ token family, s.refreshTokens.get? h = some token
    ∧ s.families.get? token.familyRef = some family
    ∧ (token.consumedAt ≠ none ∨ family.status ≠ .active)

def Dead (s : Store) (familyRef : JsString) : Prop :=
  ∃ family, s.families.get? familyRef = some family ∧ family.status ≠ .active

/-- The family of the token has ended. -/
def DeadToken (s : Store) (h : JsString) : Prop :=
  ∃ token, s.refreshTokens.get? h = some token ∧ Dead s token.familyRef

theorem Spent.grows (hspent : Spent s h) (hgrows : Grows s s') : Spent s' h := by
  obtain ⟨token, family, htoken, hfamily, hor⟩ := hspent
  obtain ⟨token', htoken', href, -, hconsumed⟩ := hgrows.refresh h token htoken
  obtain ⟨family', hfamily', -, hended⟩ := hgrows.families _ family hfamily
  exact ⟨token', family', htoken', by rw [href, hfamily'], hor.imp hconsumed hended⟩

theorem Dead.grows (hdead : Dead s familyRef) (hgrows : Grows s s') : Dead s' familyRef := by
  obtain ⟨family, hfamily, hended⟩ := hdead
  obtain ⟨family', hfamily', -, hended'⟩ := hgrows.families _ family hfamily
  exact ⟨family', hfamily', hended' hended⟩

theorem DeadToken.grows (hdead : DeadToken s h) (hgrows : Grows s s') : DeadToken s' h := by
  obtain ⟨token, htoken, hdead⟩ := hdead
  obtain ⟨token', htoken', href, -⟩ := hgrows.refresh h token htoken
  exact ⟨token', htoken', by rw [href]; exact hdead.grows hgrows⟩

theorem DeadToken.spent (hdead : DeadToken s h) : Spent s h := by
  obtain ⟨token, htoken, family, hfamily, hended⟩ := hdead
  exact ⟨token, family, htoken, hfamily, .inr hended⟩

theorem dead_revokeFamily {family : TokenFamily} {status : FamilyStatus}
    (hfamily : s.families.get? familyRef = some family) (hstatus : status ≠ .active) :
    Dead (s.apply (.revokeFamily familyRef status)) familyRef := by
  simp only [Store.apply, hfamily]
  exact ⟨_, Record.get?_set_self _ _ _, hstatus⟩

/-- A family after a step: as it was, new, or with another status. -/
theorem families_cases {family : TokenFamily}
    (hfamily : (s.apply write).families.get? familyRef = some family) :
    s.families.get? familyRef = some family
      ∨ write = .saveTokenFamily family ∧ family.familyRef = familyRef
      ∨ ∃ status was, write = .revokeFamily familyRef status
        ∧ s.families.get? familyRef = some was ∧ family = { was with status := status } := by
  cases write with
  | saveTokenFamily new =>
    simp only [Store.apply, Record.get?_set] at hfamily
    split_ifs at hfamily with href
    · cases hfamily
      exact .inr (.inl ⟨rfl, href⟩)
    · exact .inl hfamily
  | revokeFamily ref status =>
    simp only [Store.apply] at hfamily
    split at hfamily
    · rename_i was hwas
      rw [Record.get?_set] at hfamily
      split_ifs at hfamily with href
      · subst href
        cases hfamily
        exact .inr (.inr ⟨status, was, rfl, hwas, rfl⟩)
      · exact .inl hfamily
    · exact .inl hfamily
  | consumeAuthorizationCode =>
    simp only [Store.apply] at hfamily
    split at hfamily <;> exact .inl hfamily
  | consumeRefreshToken =>
    simp only [Store.apply] at hfamily
    split at hfamily <;> exact .inl hfamily
  | _ => exact .inl hfamily

/-! ## Presentations -/

theorem presentations_cons (h : JsString) (past : Past) (w : World) (e : Event) :
    presentations S h ((w, e) :: past)
      = (((presented S w e).filter (·.2 = h)).map (·.1)).toList ++ presentations S h past := by
  rw [presentations, List.filterMap_cons]
  cases ((presented S w e).filter (·.2 = h)).map (·.1) <;> rfl

theorem presented_eq_some {j : ℕ} (hpresented : presented S w e = some (j, h)) :
    ∃ env input existing family, e = .work j env
      ∧ w.tasks[j]? = some (.refresh input (.running (.within (.familyRead existing (some family)))))
      ∧ family.clientId = input.clientId ∧ env.now < existing.expiresAt
      ∧ S.sha256 input.refreshToken = h := by
  cases e with
  | call => cases hpresented
  | work i env =>
    simp only [presented] at hpresented
    split at hpresented
    · rename_i input existing family hi
      split_ifs at hpresented with howned
      cases hpresented
      exact ⟨env, input, existing, family, rfl, hi, howned.1, howned.2, rfl⟩
    · cases hpresented

/-- A presentation spends the token; if it was spent before, its family ends. -/
theorem presents {j : ℕ} (hpresented : presented S w e = some (j, h)) (hnext : next S w e = some w')
    (hgrows : Grows w.store w'.store) (hsound : ∀ task ∈ w.tasks, Sound S w.store task) :
    Spent w'.store h ∧ (Spent w.store h → DeadToken w'.store h) := by
  obtain ⟨env, input, existing, family, rfl, hi, howned, hunexpired, rfl⟩ :=
    presented_eq_some hpresented
  rcases next_cases hnext with ⟨call, hcall, -⟩ | ⟨i, env', task, write, task', he, hi', ha, hw, rfl⟩
  · cases hcall
  cases he
  rw [hi] at hi'
  cases hi'
  obtain ⟨⟨token, htoken, href, -⟩, hfound⟩ :=
    (hsound _ (List.mem_of_getElem? hi)).family input existing (some family) rfl
  obtain ⟨hfamilyRef, current, hcurrent, hended⟩ := hfound family rfl
  rw [← href] at hcurrent
  obtain ⟨p', rfl, ⟨phase, hphase, hstep⟩ | ⟨result, hresult, -⟩⟩ := refresh_cases ha
  · cases hphase
    cases hstep with
    | refused message early => exact absurd rfl (early.2 _ _)
    | inactive existing found unchecked =>
      -- the family was read as ended
      have hstatus : family.status ≠ .active := by
        intro hactive
        simp [checkFamily, howned, hactive, hunexpired] at unchecked
      have hdead : DeadToken w.store (S.sha256 input.refreshToken) :=
        ⟨token, htoken, current, hcurrent, hended hstatus⟩
      exact ⟨hdead.spent, fun _ => hdead⟩
    | reused existing found family' checked consumed =>
      cases (Option.filter_eq_some_iff.1 checked).1
      have hdead : DeadToken (w.store.apply (.revokeFamily family.familyRef .compromised))
          (S.sha256 input.refreshToken) := by
        refine ⟨token, ?_, ?_⟩
        · simp only [Store.apply]
          split <;> exact htoken
        · rw [hfamilyRef, href]
          exact dead_revokeFamily (href ▸ hcurrent) (by decide)
      exact ⟨hdead.spent, fun _ => hdead⟩
    | rotated existing found family' checked unconsumed =>
      have hopen : token.consumedAt = none := by
        by_contra hconsumed
        exact unconsumed (by simp [htoken, hconsumed])
      have hopen' : w.store.openRefreshToken (S.sha256 input.refreshToken) = some token := by
        simp [Store.openRefreshToken, htoken, hopen]
      obtain ⟨current', hcurrent', -⟩ := hgrows.families _ current hcurrent
      obtain ⟨token', htoken', href', -⟩ := hgrows.refresh _ token htoken
      obtain ⟨token'', htoken'', hconsumed⟩ := consumed_apply hopen' env.now
        (opaqueToken S env "vey_refresh" 0).ref
      rw [htoken'] at htoken''
      cases htoken''
      refine ⟨⟨token', current', htoken', by rw [href', hcurrent'], .inl hconsumed⟩, ?_⟩
      -- the token was open, so if it was spent then its family had ended
      rintro ⟨token₀, family₀, htoken₀, hfamily₀, hor⟩
      rw [htoken] at htoken₀
      cases htoken₀
      have hdead : DeadToken w.store (S.sha256 input.refreshToken) :=
        ⟨token, htoken, family₀, hfamily₀, hor.resolve_left fun h => h hopen⟩
      exact hdead.grows hgrows
  · cases hresult

/-! ## Runs -/

structure Rotation (S : Service) (past : Past) (w : World) : Prop where
  keyed : ∀ familyRef family, w.store.families.get? familyRef = some family →
    family.familyRef = familyRef
  sound : ∀ task ∈ w.tasks, Sound S w.store task
  /-- One refresh at most has consumed a token. -/
  single : ∀ (i j : ℕ) inputᵢ pᵢ inputⱼ pⱼ, w.tasks[i]? = some (.refresh inputᵢ pᵢ) →
    w.tasks[j]? = some (.refresh inputⱼ pⱼ) → Rotated pᵢ → Rotated pⱼ →
    S.sha256 inputᵢ.refreshToken = S.sha256 inputⱼ.refreshToken → i = j
  presenters : ∀ h, ∀ i ∈ presentations S h past,
    ∃ input p, w.tasks[i]? = some (.refresh input p) ∧ S.sha256 input.refreshToken = h
  spent : ∀ h, presentations S h past ≠ [] → Spent w.store h
  dead : ∀ h, 2 ≤ (presentations S h past).length → DeadToken w.store h
  revoked : ∀ familyRef family, w.store.families.get? familyRef = some family →
    family.status = .revoked → familyRef ∈ revocations S past

theorem mem_revocations_cons :
    familyRef ∈ revocations S ((w, e) :: past)
      ↔ written S w e = .revokeFamily familyRef .revoked ∨ familyRef ∈ revocations S past := by
  rw [revocations, List.filterMap_cons]
  split
  · rename_i hnone
    rw [revocations]
    refine ⟨.inr, Or.rec (fun hw => ?_) id⟩
    rw [hw] at hnone
    cases hnone
  · rename_i ref hsome
    rw [List.mem_cons, revocations]
    refine or_congr_left ⟨?_, fun hw => ?_⟩
    · rintro rfl
      split at hsome
      · cases hsome
        assumption
      · cases hsome
    · rw [hw] at hsome
      cases hsome
      rfl

/-- The task at a place after a step, if it is a refresh, was one before. -/
theorem refresh_before {j : ℕ} {input : RefreshInput} {p : Progress (ForClient RefreshPhase)}
    (hi : w.tasks[i]? = some task) (ha : task.advance S env s = some (write, task'))
    (hj : (w.tasks.set i task')[j]? = some (.refresh input p)) :
    j = i ∧ task' = .refresh input p ∧ (∃ p₀, task = .refresh input p₀)
      ∨ j ≠ i ∧ w.tasks[j]? = some (.refresh input p) := by
  by_cases hji : j = i
  · subst hji
    rw [List.getElem?_set_self (List.getElem?_eq_some_iff.1 hi).1] at hj
    cases hj
    exact .inl ⟨rfl, rfl, (advance_allows ha).1.refresh⟩
  · rw [List.getElem?_set_ne (Ne.symm hji)] at hj
    exact .inr ⟨hji, hj⟩

/-- A refresh that has come to hold its token's consumption either did so before, or has found the
token open. -/
theorem rotated_before {input : RefreshInput} {p p' : Progress (ForClient RefreshPhase)}
    (ha : (Task.refresh input p).advance S env s = some (write, .refresh input p'))
    (hp' : Rotated p') : Rotated p ∨ ¬ Consumed s (S.sha256 input.refreshToken) := by
  obtain ⟨q, hq, ⟨phase, rfl, hstep⟩ | ⟨result, rfl, rfl, rfl⟩⟩ := refresh_cases ha
  · cases hq
    cases hstep with
    | rotated existing found family checked unconsumed =>
      refine .inr fun ⟨token, htoken, hconsumed⟩ => unconsumed ?_
      simp [htoken, hconsumed]
    | access => exact .inl trivial
    | saved => exact .inl trivial
    | _ => cases hp'
  · cases hq
    cases result with
    | ok => exact .inl trivial
    | error => cases hp'

/-- A refresh before a step is one after it. -/
theorem refresh_after (hnext : next S w e = some w') {j : ℕ} {input : RefreshInput}
    {p : Progress (ForClient RefreshPhase)} (hj : w.tasks[j]? = some (.refresh input p)) :
    ∃ p', w'.tasks[j]? = some (.refresh input p') := by
  have hlt := (List.getElem?_eq_some_iff.1 hj).1
  rcases next_cases hnext with ⟨call, rfl, rfl⟩ | ⟨i, env, task, write, task', rfl, hi, ha, hw, rfl⟩
  · exact ⟨p, by rw [List.getElem?_append_left hlt, hj]⟩
  · by_cases hij : i = j
    · subst hij
      rw [hi] at hj
      cases hj
      obtain ⟨p', rfl, -⟩ := refresh_cases ha
      exact ⟨p', List.getElem?_set_self hlt⟩
    · exact ⟨p, by rw [List.getElem?_set_ne hij, hj]⟩

theorem Rotation.step (inv : Rotation S past w) (hnext : next S w e = some w')
    (drawn : Drawn S past w e) : Rotation S ((w, e) :: past) w' := by
  have hgrows := next_grows hnext drawn
  have hpresents := fun j h (hj : presented S w e = some (j, h)) =>
    presents hj hnext hgrows inv.sound
  refine ⟨?_, ?_, ?_, fun h j hj => ?_, fun h hne => ?_, fun h hlength => ?_, ?_⟩
  · intro familyRef family hfamily
    rcases next_cases hnext with ⟨call, rfl, rfl⟩ | ⟨i, env, task, write, task', rfl, hi, ha, hw, rfl⟩
    · exact inv.keyed familyRef family hfamily
    · rcases families_cases hfamily with hwas | ⟨-, hkey⟩ | ⟨status, was, -, hwas, rfl⟩
      · exact inv.keyed familyRef family hwas
      · exact hkey
      · exact inv.keyed familyRef was hwas
  · intro other hmem
    rcases next_cases hnext with ⟨call, rfl, rfl⟩ | ⟨i, env, task, write, task', rfl, hi, ha, hw, rfl⟩
    · rcases List.mem_append.1 hmem with hmem | hmem
      · exact inv.sound other hmem
      · rw [List.mem_singleton.1 hmem]
        exact .of_call S _ call
    · rcases List.mem_or_eq_of_mem_set hmem with hmem | rfl
      · exact (inv.sound other hmem).grows hgrows
      · exact (inv.sound task (List.mem_of_getElem? hi)).advance inv.keyed ha hgrows
  · rcases next_cases hnext with ⟨call, rfl, rfl⟩ | ⟨i, env, task, write, task', rfl, hi, ha, hw, rfl⟩
    · intro i j inputᵢ pᵢ inputⱼ pⱼ hi hj hpᵢ hpⱼ hsame
      have hold : ∀ {k : ℕ} {input p}, (w.tasks ++ [call.task])[k]? = some (.refresh input p) →
          Rotated p → w.tasks[k]? = some (.refresh input p) := by
        intro k input p hk hp
        rcases lt_or_ge k w.tasks.length with hlt | hge
        · rwa [List.getElem?_append_left hlt] at hk
        · rw [List.getElem?_append_right hge] at hk
          have := List.mem_singleton.1 (List.mem_of_getElem? hk)
          cases call <;> cases this
          cases hp
      exact inv.single i j inputᵢ pᵢ inputⱼ pⱼ (hold hi hpᵢ) (hold hj hpⱼ) hpᵢ hpⱼ hsame
    · -- two refreshes of one token that have both consumed it: no other had when this one did
      have hone : ∀ {j : ℕ} {input p' inputⱼ pⱼ}, task' = .refresh input p' → Rotated p' →
          j ≠ i → w.tasks[j]? = some (.refresh inputⱼ pⱼ) → Rotated pⱼ →
          S.sha256 input.refreshToken ≠ S.sha256 inputⱼ.refreshToken := by
        rintro j input p' inputⱼ pⱼ rfl hp' hji hj hpⱼ hsame
        obtain ⟨p, rfl⟩ := (advance_allows ha).1.refresh
        rcases rotated_before ha hp' with hp | hunconsumed
        · exact hji (inv.single j i _ _ _ _ hj hi hpⱼ hp hsame.symm)
        · refine hunconsumed ?_
          rw [hsame]
          exact (inv.sound _ (List.mem_of_getElem? hj)).rotated inputⱼ pⱼ rfl hpⱼ
      intro j k inputⱼ pⱼ inputₖ pₖ hj hk hpⱼ hpₖ hsame
      rcases refresh_before hi ha hj with ⟨rfl, hj', -⟩ | ⟨hji, hj'⟩ <;>
        rcases refresh_before hi ha hk with ⟨rfl, hk', -⟩ | ⟨hki, hk'⟩
      · rfl
      · exact absurd hsame (hone hj' hpⱼ hki hk' hpₖ)
      · exact absurd hsame.symm (hone hk' hpₖ hji hj' hpⱼ)
      · exact inv.single j k _ _ _ _ hj' hk' hpⱼ hpₖ hsame
  · have hbefore : ∃ input p, w.tasks[j]? = some (.refresh input p)
        ∧ S.sha256 input.refreshToken = h := by
      rw [presentations_cons, List.mem_append, Option.mem_toList] at hj
      rcases hj with hj | hj
      · obtain ⟨⟨i, h'⟩, hfound, rfl⟩ := Option.map_eq_some_iff.1 hj
        obtain ⟨hpresented, hh⟩ := Option.filter_eq_some_iff.1 hfound
        obtain ⟨env, input, existing, family, -, hi, -, -, rfl⟩ := presented_eq_some hpresented
        exact ⟨input, _, hi, of_decide_eq_true hh⟩
      · exact inv.presenters h j hj
    obtain ⟨input, p, hj, hhash⟩ := hbefore
    obtain ⟨p', hj'⟩ := refresh_after hnext hj
    exact ⟨input, p', hj', hhash⟩
  · rw [presentations_cons] at hne
    rcases hfound : (presented S w e).filter (·.2 = h) with _ | ⟨j, h'⟩
    · rw [hfound] at hne
      exact (inv.spent h hne).grows hgrows
    · obtain ⟨hpresented, hh⟩ := Option.filter_eq_some_iff.1 hfound
      cases of_decide_eq_true hh
      exact (hpresents j h' hpresented).1
  · rw [presentations_cons] at hlength
    rcases hfound : (presented S w e).filter (·.2 = h) with _ | ⟨j, h'⟩
    · rw [hfound] at hlength
      exact (inv.dead h hlength).grows hgrows
    · obtain ⟨hpresented, hh⟩ := Option.filter_eq_some_iff.1 hfound
      cases of_decide_eq_true hh
      rw [hfound] at hlength
      refine (hpresents j h' hpresented).2 (inv.spent h' fun hnil => ?_)
      simp [hnil] at hlength
  · intro familyRef family hfamily hrevoked
    rw [mem_revocations_cons]
    rcases next_cases hnext with ⟨call, rfl, rfl⟩ | ⟨i, env, task, write, task', rfl, hi, ha, hw, rfl⟩
    · exact .inr (inv.revoked familyRef family hfamily hrevoked)
    · rcases families_cases hfamily with hwas | ⟨rfl, -⟩ | ⟨status, was, rfl, hwas, rfl⟩
      · exact .inr (inv.revoked familyRef family hwas hrevoked)
      · rw [(advance_allows ha).2.created] at hrevoked
        cases hrevoked
      · cases hrevoked
        exact .inl hw

theorem Run.rotation (h : Run S past w) (drawn : History.Every (Drawn S) past) :
    Rotation S past w := by
  induction h with
  | init =>
    refine ⟨fun _ _ h => ?_, fun _ h => absurd h List.not_mem_nil,
      fun _ _ _ _ _ _ h => absurd h (by simp), fun _ _ h => absurd h List.not_mem_nil,
      fun _ h => absurd rfl h, fun _ h => absurd h (by simp [presentations]), fun _ _ h => ?_⟩
    · simp [Store.empty] at h
    · simp [Store.empty] at h
  | step run taken ih => exact (ih drawn.2).step taken drawn.1

end Agid.VeygritId
