import Agid.Proofs.DurableRegistry
import Agid.RegistryAdapters

/-!
# The file store and the durable stores

With the same sets, the two make the same decision of a use whose key and token are well formed.
Elsewhere they part at two places: the file store revokes before it writes the time of its event,
and looks for a used token also where there is no key.  What either answers is what its step machine
comes to when no other call interrupts it.
-/

namespace Agid.RegistryAdapters

open AgidSecurePos PosRegistry
open DurableRegistry (Database StorageMode idErrors insertKey arrayFromSet)

variable {platform : DurableRegistry.Platform} {registryId : JsString} {mode : StorageMode}

/-! ## The same sets -/

theorem mem_insertKey_iff {keys : List JsString} {key s : JsString} :
    s ∈ (insertKey keys key).1 ↔ s ∈ keys ∨ s = key := by
  unfold insertKey
  split_ifs with hmem
  · exact ⟨.inl, fun h => h.elim id fun h => h ▸ hmem⟩
  · simp

theorem mem_ofList_append {l : List JsString} {s t : JsString} :
    t ∈ SortedSet.ofList (l ++ [s]) ↔ t ∈ l ∨ t = s := by
  rw [SortedSet.mem_ofList, List.mem_append, List.mem_singleton]

section Sets

variable {state state' : StoredState} {db db' : Database}

theorem SameSets.insertUsed (h : SameSets state db) (jti : JsString) :
    SameSets { state with usedJtis := SortedSet.ofList (state.usedJtis ++ [jti]) }
      (DurableRegistry.insertUsed db jti).1 :=
  ⟨fun t => by rw [mem_ofList_append, h.used]; exact mem_insertKey_iff.symm, h.revoked, h.keys⟩

theorem SameSets.insertRevokedJti (h : SameSets state db) (jti : JsString) :
    SameSets { state with revokedJtis := SortedSet.ofList (state.revokedJtis ++ [jti]) }
      (DurableRegistry.insertRevokedJti db jti) :=
  ⟨h.used, fun t => by rw [mem_ofList_append, h.revoked]; exact mem_insertKey_iff.symm, h.keys⟩

theorem SameSets.insertRevokedKey (h : SameSets state db) (keyId : JsString) :
    SameSets { state with revokedKeyIds := SortedSet.ofList (state.revokedKeyIds ++ [keyId]) }
      (DurableRegistry.insertRevokedKey db keyId) :=
  ⟨h.used, h.revoked, fun t => by rw [mem_ofList_append, h.keys]; exact mem_insertKey_iff.symm⟩

theorem SameSets.audited (h : SameSets state db) (event event' : AuditEvent) :
    SameSets (state.logged event)
      (DurableRegistry.trimAudit mode (DurableRegistry.appendAudit db event')) := by
  unfold DurableRegistry.trimAudit
  split_ifs
  · exact ⟨h.used, h.revoked, h.keys⟩
  · exact ⟨h.used, h.revoked, h.keys⟩

theorem SameSets.auditedOnly (h : SameSets state db) (event : AuditEvent) :
    SameSets state (DurableRegistry.trimAudit mode (DurableRegistry.appendAudit db event)) := by
  unfold DurableRegistry.trimAudit
  split_ifs
  · exact ⟨h.used, h.revoked, h.keys⟩
  · exact ⟨h.used, h.revoked, h.keys⟩

end Sets

/-! ## The decision of a use -/

theorem mem_arrayFromSet_iff {values : List JsString} {s : JsString} :
    s ∈ arrayFromSet values ↔ s ∈ setFromIterable values :=
  SortedSet.mem_ofList

theorem mem_setFromIterable_arrayFromSet {values : List JsString} {label : JsString} :
    label ∈ setFromIterable (arrayFromSet values) ↔ label ∈ setFromIterable values := by
  simp only [mem_setFromIterable, arrayFromSet, SortedSet.mem_ofList, List.mem_filter,
    List.mem_map, decide_eq_true_eq]
  constructor
  · rintro ⟨hne, _, ⟨⟨value, hvalue, rfl⟩, -⟩, rfl⟩
    exact ⟨hne, value, hvalue, (trim_trim value).symm⟩
  · rintro ⟨hne, value, hvalue, rfl⟩
    exact ⟨hne, trim value, ⟨⟨value, hvalue, rfl⟩, hne⟩, trim_trim value⟩

theorem setFromIterable_congr {l l' : List JsString} (h : ∀ s, s ∈ l ↔ s ∈ l') {label : JsString} :
    label ∈ setFromIterable l ↔ label ∈ setFromIterable (arrayFromSet l') := by
  rw [mem_setFromIterable_arrayFromSet, mem_setFromIterable, mem_setFromIterable]
  simp only [h]

/-- Two registries with the same sets and the same freshness find the same errors. -/
theorem verify_congr {dates : Dates} {registry registry' : RegistrySnapshot}
    {keyId jti : Option JsString} {exp : Option ℚ} {now : JsNumber}
    {decision decision' : RegistryDecision}
    (h : verifyAgidSecurePosRegistry dates (some registry) keyId jti exp now = .ok decision)
    (h' : verifyAgidSecurePosRegistry dates (some registry') keyId jti exp now = .ok decision')
    (hfresh : registry.freshUntil = registry'.freshUntil)
    (hused : ∀ label, label ∈ setFromIterable registry.usedJtis
      ↔ label ∈ setFromIterable registry'.usedJtis)
    (hrevoked : ∀ label, label ∈ setFromIterable registry.revokedJtis
      ↔ label ∈ setFromIterable registry'.revokedJtis)
    (hkeys : ∀ label, label ∈ setFromIterable registry.revokedKeyIds
      ↔ label ∈ setFromIterable registry'.revokedKeyIds) : decision.errors = decision'.errors := by
  rw [verify_errors h, verify_errors h', stale, stale, hfresh,
    if_congr (and_congr_right' (hkeys _)) rfl rfl,
    if_congr (and_congr_right' (hrevoked _)) rfl rfl,
    if_congr (and_congr_right' (hused _)) rfl rfl]

/-! ## From the decision to the answer -/

section Mutation

variable {env : Env} {state : StoredState} {db : Database} {m : Mutation}

theorem finish_alike {a : Applied} {p : Pending} (hsame : SameSets a.state db)
    (houtcome : a.outcome = p.outcome) (hm : p.mutation = m) :
    (File.finish platform.toPlatform env m p.nowMs a).2.map seenMutation
        = (Durable.finishMutation platform registryId mode env db p).2.map seenMutation
      ∧ SameSets (File.finish platform.toPlatform env m p.nowMs a).1
        (Durable.finishMutation platform registryId mode env db p).1 := by
  subst hm
  unfold File.finish Durable.finishMutation auditEvent publicStatus DurableRegistry.publicStatus
  rcases hnow : nowIso platform.dates p.nowMs with e | checkedAt
  · exact ⟨rfl, hsame⟩
  · rcases hfresh : freshUntil platform.toPlatform p.nowMs with e | fresh
    · exact ⟨rfl, hsame.audited _ _⟩
    · refine ⟨?_, hsame.audited _ _⟩
      simp only [bind, Except.bind, pure, Except.pure, Except.map, seenMutation, houtcome]

theorem nowIso_error {dates : Dates} {n : JsNumber} (h : timeClip n = none) :
    nowIso dates n = .error (js "Invalid time value") := by
  rw [nowIso, h]

theorem nowIso_eq_ok (dates : Dates) {n : JsNumber} (h : timeClip n ≠ none) :
    ∃ text, nowIso dates n = .ok text := by
  obtain ⟨t, ht⟩ := Option.ne_none_iff_exists'.1 h
  exact ⟨dates.toISOString t, by rw [nowIso, ht]⟩

theorem untimely (platform : DurableRegistry.Platform) {n : JsNumber} (h : ¬ Timely n) :
    nowIso platform.dates n = .error (js "Invalid time value")
      ∨ ∃ text, nowIso platform.dates n = .ok text
        ∧ freshUntil platform.toPlatform n = .error (js "Invalid time value") := by
  by_cases hnow : timeClip n = none
  · exact .inl (nowIso_error hnow)
  · obtain ⟨text, htext⟩ := nowIso_eq_ok platform.dates hnow
    exact .inr ⟨text, htext, nowIso_error (by_contra fun hfresh => h ⟨hnow, hfresh⟩)⟩

/-- At a time that cannot be written, or whose freshness cannot, the file store decides nothing. -/
theorem markUsed_untimely {nowMs : JsNumber} (h : ¬ Timely nowMs) (input : MutationInput) :
    markUsed platform.toPlatform state input nowMs = .error (js "Invalid time value") := by
  unfold markUsed snapshotFromState
  rcases untimely platform h with hnow | ⟨text, hnow, hfresh⟩
  · rw [hnow]
    rfl
  · rw [hnow, hfresh]
    rfl

theorem decideUse_untimely {nowMs : JsNumber} (h : ¬ Timely nowMs)
    (sets : DurableRegistry.RegistrySets) :
    DurableRegistry.decideUse platform registryId sets m nowMs
      = .error (js "Invalid time value") := by
  unfold DurableRegistry.decideUse DurableRegistry.snapshot
  rcases untimely platform h with hnow | ⟨text, hnow, hfresh⟩
  · rw [hnow]
    rfl
  · rw [hnow, hfresh]
    rfl

theorem finishMutation_untimely {p : Pending} (hsame : SameSets state db) (h : ¬ Timely p.nowMs) :
    (Durable.finishMutation platform registryId mode env db p).2
        = .error (js "Invalid time value")
      ∧ SameSets state (Durable.finishMutation platform registryId mode env db p).1 := by
  unfold Durable.finishMutation auditEvent DurableRegistry.publicStatus
  rcases untimely platform h with hnow | ⟨text, hnow, hfresh⟩
  · rw [hnow]
    exact ⟨rfl, hsame⟩
  · rw [hnow, hfresh]
    exact ⟨rfl, hsame.auditedOnly _⟩

/-- What `markUsed` finds wrong with its ids. -/
theorem idErrors_markUsed (haction : m.action = .markUsed) : idErrors platform m
    = (if cleanKeyId m.input.keyId = [] then [js "key-id-invalid"] else [])
      ++ (if cleanJti platform.toPlatform m.input.jti = [] then [js "jti-invalid"] else []) := by
  simp only [idErrors, haction]

/-- The decisions of the two stores on one use. -/
structure Decided (platform : DurableRegistry.Platform) (state : StoredState) (db : Database)
    (m : Mutation) (nowMs : JsNumber) (a : Applied) (p : Pending) : Prop where
  mutation : p.mutation = m
  time : p.nowMs = nowMs
  errors : a.errors = idErrors platform m ++ p.errors
  used : js "token-already-used" ∈ p.errors
    ↔ cleanJti platform.toPlatform m.input.jti ∈ setFromIterable db.usedJtis
  outcome : p.outcome = if p.errors = [] then .accepted
    else if js "token-already-used" ∈ p.errors then .conflict else .rejected
  outcome' : a.outcome = if a.errors = [] then .accepted
    else if js "token-already-used" ∈ p.errors then .conflict else .rejected
  state : a.state = if a.errors = [] then { state with
    usedJtis := SortedSet.ofList
      (state.usedJtis ++ [cleanJti platform.toPlatform m.input.jti]) } else state

theorem cleanLabel_cleanJti (value : Option JsString) :
    cleanLabel (some (cleanJti platform.toPlatform value))
      = cleanJti platform.toPlatform value := by
  by_cases hnil : cleanJti platform.toPlatform value = []
  · rw [hnil]
    rfl
  · exact trim_of_matchesJti (cleanJti_matches hnil)

/-- At a time that can be written the file store decides as a durable store does that looks at every
use. -/
theorem markUsed_timely {nowMs : JsNumber} (h : Timely nowMs) (hsame : SameSets state db)
    (haction : m.action = .markUsed) :
    ∃ a p, markUsed platform.toPlatform state m.input nowMs = .ok a
      ∧ DurableRegistry.decideUse platform registryId (DurableRegistry.readRegistrySets db) m nowMs
        = .ok p
      ∧ Decided platform state db m nowMs a p := by
  obtain ⟨text, hnow⟩ := nowIso_eq_ok platform.dates h.1
  obtain ⟨fresh, hfresh⟩ : ∃ fresh, freshUntil platform.toPlatform nowMs = .ok fresh :=
    nowIso_eq_ok platform.dates h.2
  have hfile : ∃ a, markUsed platform.toPlatform state m.input nowMs = .ok a := by
    unfold markUsed snapshotFromState verifyAgidSecurePosRegistry
    rw [hnow, hfresh]
    exact ⟨_, rfl⟩
  have hdurable : ∃ p, DurableRegistry.decideUse platform registryId
      (DurableRegistry.readRegistrySets db) m nowMs = .ok p := by
    unfold DurableRegistry.decideUse DurableRegistry.snapshot verifyAgidSecurePosRegistry
    rw [hnow, hfresh]
    exact ⟨_, rfl⟩
  obtain ⟨a, ha⟩ := hfile
  obtain ⟨p, hp⟩ := hdurable
  refine ⟨a, p, ha, hp, ?_⟩
  have hchecked := markUsed_checked ha
  obtain ⟨registry, decision, hregistry, hdecision, hae, hao⟩ := hchecked.decided
  obtain ⟨registry', hregistry', hbind⟩ := bind_eq_ok.1 hp
  obtain ⟨decision', hdecision', hpure⟩ := bind_eq_ok.1 hbind
  unfold snapshotFromState at hregistry
  unfold DurableRegistry.snapshot at hregistry'
  rw [hnow, hfresh] at hregistry hregistry'
  cases hregistry
  cases hregistry'
  have herrors : decision.errors = decision'.errors :=
    verify_congr hdecision hdecision' rfl (fun _ => setFromIterable_congr hsame.used)
      (fun _ => setFromIterable_congr hsame.revoked) (fun _ => setFromIterable_congr hsame.keys)
  have hused := alreadyUsed_mem hdecision'
  rw [cleanLabel_cleanJti, DurableRegistry.readRegistrySets, mem_setFromIterable_arrayFromSet,
    and_iff_right_of_imp fun hmem => (mem_setFromIterable.1 hmem).1] at hused
  rw [herrors] at hae hao
  rw [← idErrors_markUsed haction] at hae
  cases hpure
  exact ⟨rfl, rfl, hae, hused, rfl, hao, hchecked.state⟩

theorem Decided.accepts {nowMs : JsNumber} {a : Applied} {p : Pending}
    (h : Decided platform state db m nowMs a p) (hp : p.errors = []) :
    cleanJti platform.toPlatform m.input.jti ∉ setFromIterable db.usedJtis := by
  rw [← h.used, hp]
  exact List.not_mem_nil

/-- The row of a use that is decided on is new. -/
theorem insert_of_accepts (haction : m.action = .markUsed) (hids : idErrors platform m = [])
    (hunused : cleanJti platform.toPlatform m.input.jti ∉ setFromIterable db.usedJtis) :
    DurableRegistry.insert platform db m
      = ((DurableRegistry.insertUsed db (cleanJti platform.toPlatform m.input.jti)).1, true) := by
  rw [idErrors_markUsed haction, List.append_eq_nil_iff] at hids
  have hjti : cleanJti platform.toPlatform m.input.jti ≠ [] := by
    intro hnil
    simp [hnil] at hids
  have hmem : cleanJti platform.toPlatform m.input.jti ∉ db.usedJtis := fun hmem =>
    hunused (mem_setFromIterable.2 ⟨hjti, _, hmem, trim_of_matchesJti (cleanJti_matches hjti)⟩)
  simp [DurableRegistry.insert, haction, DurableRegistry.insertUsed, insertKey, hmem]

theorem markUsed_alike (haction : m.action = .markUsed) (hsame : SameSets state db)
    (hregular : Regular platform env db m) :
    (File.mutate platform.toPlatform env state m).2.map seenMutation
        = (Durable.mutate platform registryId mode env db m).2.map seenMutation
      ∧ SameSets (File.mutate platform.toPlatform env state m).1
        (Durable.mutate platform registryId mode env db m).1 := by
  simp only [Regular, haction] at hregular
  simp only [File.mutate, Durable.mutate, apply, haction, if_true]
  generalize m.input.now.getD (.finite env.now) = nowMs at hregular ⊢
  by_cases htimely : Timely nowMs
  · obtain ⟨a, p, ha, hp, hd⟩ :=
      @markUsed_timely platform registryId state db m nowMs htimely hsame haction
    rw [ha, hp]
    dsimp only
    by_cases hids : idErrors platform m = []
    · have herrors := hd.errors
      rw [hids, List.nil_append] at herrors
      have houtcome : a.outcome = p.outcome := by rw [hd.outcome', hd.outcome, herrors]
      rw [if_neg (not_not.2 hids)]
      split_ifs with hnone
      · obtain ⟨text, hnow⟩ := nowIso_eq_ok platform.dates htimely.1
        have hinsert := insert_of_accepts haction hids (hd.accepts hnone)
        simp only [Durable.insertAndFinish, hd.time, hnow, hd.mutation, hinsert]
        rw [← hd.time]
        refine finish_alike ?_ houtcome hd.mutation
        rw [hd.state, if_pos (herrors.trans hnone)]
        exact hsame.insertUsed _
      · rw [← hd.time]
        refine finish_alike ?_ houtcome hd.mutation
        rwa [hd.state, if_neg fun h => hnone (herrors.symm.trans h)]
    · rw [if_pos hids]
      have herrors : a.errors ≠ [] := by
        rw [hd.errors]
        exact fun h => hids (List.append_eq_nil_iff.1 h).1
      have hunused : js "token-already-used" ∉ p.errors := by
        intro hmem
        rw [hd.used] at hmem
        have hkey : cleanKeyId m.input.keyId = [] := by
          by_contra hkey
          rw [idErrors_markUsed haction, if_neg hkey, if_neg (mem_setFromIterable.1 hmem).1] at hids
          exact hids rfl
        exact hregular hkey (mem_arrayFromSet_iff.2 hmem) htimely
      refine finish_alike (p := ⟨m, nowMs, none, .rejected, _⟩) ?_ ?_ rfl
      · rwa [hd.state, if_neg herrors]
      · rw [hd.outcome', if_neg herrors, if_neg hunused]
  · rw [markUsed_untimely htimely]
    split_ifs with hids
    · obtain ⟨herror, hsets⟩ : (Durable.finishMutation platform registryId mode env db
          ⟨m, nowMs, none, .rejected, idErrors platform m⟩).2 = .error (js "Invalid time value")
        ∧ SameSets state (Durable.finishMutation platform registryId mode env db
          ⟨m, nowMs, none, .rejected, idErrors platform m⟩).1 :=
        finishMutation_untimely hsame htimely
      rw [herror]
      exact ⟨rfl, hsets⟩
    · rw [decideUse_untimely htimely]
      exact ⟨rfl, hsame⟩

/-- A revocation that is done: where its time cannot be written, it was done before. -/
theorem revoke_alike {a : Applied} {nowMs : JsNumber} (houtcome : a.outcome = .accepted)
    (hinserted : (DurableRegistry.insert platform db m).2 = true)
    (hstate : SameSets a.state (DurableRegistry.insert platform db m).1)
    (htime : timeClip nowMs = none → SameSets a.state db) :
    (File.finish platform.toPlatform env m nowMs a).2.map seenMutation
        = (Durable.insertAndFinish platform registryId mode env db
          ⟨m, nowMs, none, .accepted, []⟩).2.map seenMutation
      ∧ SameSets (File.finish platform.toPlatform env m nowMs a).1
        (Durable.insertAndFinish platform registryId mode env db
          ⟨m, nowMs, none, .accepted, []⟩).1 := by
  by_cases hnow : timeClip nowMs = none
  · simp only [Durable.insertAndFinish, File.finish, auditEvent, nowIso_error hnow]
    exact ⟨rfl, htime hnow⟩
  · obtain ⟨text, htext⟩ := nowIso_eq_ok platform.dates hnow
    simp only [Durable.insertAndFinish, htext, hinserted]
    exact finish_alike (p := ⟨m, nowMs, none, .accepted, []⟩) hstate houtcome rfl

theorem or_eq_of_mem {l l' : List JsString} {s : JsString} (h : ∀ t, t ∈ l ↔ t ∈ l') (hs : s ∈ l')
    (t : JsString) : t ∈ SortedSet.ofList (l ++ [s]) ↔ t ∈ l' := by
  rw [mem_ofList_append, h]
  exact ⟨fun ht => ht.elim id fun ht => ht ▸ hs, .inl⟩

theorem revokeToken_alike (haction : m.action = .revokeToken) (hsame : SameSets state db)
    (hregular : Regular platform env db m) :
    (File.mutate platform.toPlatform env state m).2.map seenMutation
        = (Durable.mutate platform registryId mode env db m).2.map seenMutation
      ∧ SameSets (File.mutate platform.toPlatform env state m).1
        (Durable.mutate platform registryId mode env db m).1 := by
  simp only [Regular, haction, DurableRegistry.Recorded] at hregular
  simp only [File.mutate, Durable.mutate, apply, haction, reduceCtorEq, if_false]
  generalize m.input.now.getD (.finite env.now) = nowMs at hregular ⊢
  have hids : idErrors platform m = if cleanJti platform.toPlatform m.input.jti = [] then
      [js "jti-invalid"] else [] := by
    simp only [idErrors, haction]
  unfold revokeToken
  dsimp only
  by_cases hjti : cleanJti platform.toPlatform m.input.jti = []
  · rw [if_pos hjti] at hids ⊢
    rw [hids, if_pos (List.cons_ne_nil _ _)]
    exact finish_alike (p := ⟨m, nowMs, none, .rejected, _⟩) hsame rfl rfl
  · rw [if_neg hjti] at hids ⊢
    rw [if_neg (not_not.2 hids)]
    have hinsert : DurableRegistry.insert platform db m = (DurableRegistry.insertRevokedJti db
        (cleanJti platform.toPlatform m.input.jti), true) := by
      simp only [DurableRegistry.insert, haction]
    refine revoke_alike rfl (by rw [hinsert]) (hinsert ▸ hsame.insertRevokedJti _) fun hnow => ?_
    have hrecorded := by_contra fun h => hregular hids h hnow
    exact ⟨hsame.used, or_eq_of_mem hsame.revoked hrecorded, hsame.keys⟩

theorem revokeKey_alike (haction : m.action = .revokeKey) (hsame : SameSets state db)
    (hregular : Regular platform env db m) :
    (File.mutate platform.toPlatform env state m).2.map seenMutation
        = (Durable.mutate platform registryId mode env db m).2.map seenMutation
      ∧ SameSets (File.mutate platform.toPlatform env state m).1
        (Durable.mutate platform registryId mode env db m).1 := by
  simp only [Regular, haction, DurableRegistry.Recorded] at hregular
  simp only [File.mutate, Durable.mutate, apply, haction, reduceCtorEq, if_false]
  generalize m.input.now.getD (.finite env.now) = nowMs at hregular ⊢
  have hids : idErrors platform m = if cleanKeyId m.input.keyId = [] then
      [js "key-id-invalid"] else [] := by
    simp only [idErrors, haction]
  unfold revokeKey
  dsimp only
  by_cases hkey : cleanKeyId m.input.keyId = []
  · rw [if_pos hkey] at hids ⊢
    rw [hids, if_pos (List.cons_ne_nil _ _)]
    exact finish_alike (p := ⟨m, nowMs, none, .rejected, _⟩) hsame rfl rfl
  · rw [if_neg hkey] at hids ⊢
    rw [if_neg (not_not.2 hids)]
    have hinsert : DurableRegistry.insert platform db m = (DurableRegistry.insertRevokedKey db
        (cleanKeyId m.input.keyId), true) := by
      simp only [DurableRegistry.insert, haction]
    refine revoke_alike rfl (by rw [hinsert]) (hinsert ▸ hsame.insertRevokedKey _) fun hnow => ?_
    have hrecorded := by_contra fun h => hregular hids h hnow
    exact ⟨hsame.used, hsame.revoked, or_eq_of_mem hsame.keys hrecorded⟩

/-- A regular mutation is answered alike, and leaves the same sets. -/
theorem mutate_alike (hsame : SameSets state db) (hregular : Regular platform env db m) :
    (File.mutate platform.toPlatform env state m).2.map seenMutation
        = (Durable.mutate platform registryId mode env db m).2.map seenMutation
      ∧ SameSets (File.mutate platform.toPlatform env state m).1
        (Durable.mutate platform registryId mode env db m).1 := by
  cases haction : m.action with
  | markUsed => exact markUsed_alike haction hsame hregular
  | revokeToken => exact revokeToken_alike haction hsame hregular
  | revokeKey => exact revokeKey_alike haction hsame hregular

end Mutation

/-! ## Deferred syncs -/

theorem item_alike {input : DeferredSyncInput} {env : Env} {state : StoredState} {db : Database}
    {item : Option Mutation} (hsame : SameSets state db)
    (hregular : ∀ m ∈ item, Regular platform env db m) :
    (File.answerItem platform.toPlatform input env state item).2.map AuditEvent.outcome
        = (Durable.answerItem platform registryId mode input env db item).2.map AuditEvent.outcome
      ∧ SameSets (File.answerItem platform.toPlatform input env state item).1
        (Durable.answerItem platform registryId mode input env db item).1 := by
  rcases item with _ | m
  · unfold File.answerItem Durable.answerItem
    rcases hevent : skippedEvent platform.toPlatform env input with e | event
    · exact ⟨rfl, hsame⟩
    · exact ⟨rfl, hsame.auditedOnly event⟩
  · obtain ⟨hanswer, hsets⟩ := @mutate_alike platform registryId mode env state db m hsame
      (hregular m rfl)
    refine ⟨?_, hsets⟩
    unfold File.answerItem Durable.answerItem
    dsimp only
    generalize (File.mutate platform.toPlatform env state m).2 = answer at hanswer ⊢
    generalize (Durable.mutate platform registryId mode env db m).2 = answer' at hanswer ⊢
    rcases answer with e | result <;> rcases answer' with e' | result'
    · simpa [Except.map] using hanswer
    · cases hanswer
    · cases hanswer
    · simpa [Except.map, seenMutation] using hanswer

theorem items_alike {input : DeferredSyncInput} : ∀ {envs : ℕ → Env} {state : StoredState}
    {db : Database} {items : List (Option Mutation)}, SameSets state db →
    RegularItems platform registryId mode input envs db items →
    (syncItems (File.answerItem platform.toPlatform input) envs state items).2.map
          (List.map AuditEvent.outcome)
        = (syncItems (Durable.answerItem platform registryId mode input) envs db items).2.map
          (List.map AuditEvent.outcome)
      ∧ SameSets (syncItems (File.answerItem platform.toPlatform input) envs state items).1
        (syncItems (Durable.answerItem platform registryId mode input) envs db items).1
  | _, _, _, [], hsame, _ => ⟨rfl, hsame⟩
  | envs, state, db, item :: items, hsame, hregular => by
    obtain ⟨hanswer, hsets⟩ := @item_alike platform registryId mode input (envs 0) state db item
      hsame hregular.1
    unfold syncItems
    rcases hfile : File.answerItem platform.toPlatform input (envs 0) state item with
      ⟨state', e | event⟩ <;>
      rcases hdurable : Durable.answerItem platform registryId mode input (envs 0) db item with
        ⟨db', e' | event'⟩ <;>
      rw [hfile, hdurable] at hanswer hsets
    · exact ⟨by simpa [Except.map] using hanswer, hsets⟩
    · cases hanswer
    · cases hanswer
    · have houtcome : event.outcome = event'.outcome := by simpa [Except.map] using hanswer
      obtain ⟨hrest, hsets'⟩ := items_alike hsets (hregular.2 db' event' hdurable)
      dsimp only
      rcases hf : syncItems (File.answerItem platform.toPlatform input) (envs <| · + 1) state' items
        with ⟨state'', e | events⟩ <;>
        rcases hd : syncItems (Durable.answerItem platform registryId mode input) (envs <| · + 1)
          db' items with ⟨db'', e' | events'⟩ <;>
        rw [hf, hd] at hrest hsets'
      · exact ⟨by simpa [Except.map] using hrest, hsets'⟩
      · cases hrest
      · cases hrest
      · refine ⟨?_, hsets'⟩
        simp only [Except.map, Except.ok.injEq] at hrest ⊢
        rw [List.map_cons, List.map_cons, houtcome, hrest]

theorem seenSync_congr {events events' : List AuditEvent} {status status' : PublicStatus}
    (h : events.map AuditEvent.outcome = events'.map AuditEvent.outcome) :
    seenSync (syncResult events status) = seenSync (syncResult events' status') := by
  have hcount : ∀ o : Outcome,
      events.countP (·.outcome = o) = events'.countP (·.outcome = o) := fun o => by
    have := congrArg (List.countP fun o' => decide (o' = o)) h
    rwa [List.countP_map, List.countP_map] at this
  simp only [seenSync, syncResult, hcount]

theorem status_alike {state : StoredState} {sets : DurableRegistry.RegistrySets} {nowMs : JsNumber}
    {f g : PublicStatus → DeferredSyncResult}
    (h : ∀ status status', seenSync (f status) = seenSync (g status')) :
    ((publicStatus platform.toPlatform state nowMs).map f).map seenSync
      = ((DurableRegistry.publicStatus platform registryId sets nowMs).map g).map seenSync := by
  unfold publicStatus DurableRegistry.publicStatus
  rcases nowIso platform.dates nowMs with e | checkedAt
  · rfl
  · rcases freshUntil platform.toPlatform nowMs with e | fresh
    · rfl
    · exact congrArg Except.ok (h _ _)

theorem applyDeferredSync_alike {envs : ℕ → Env} {state : StoredState} {db : Database}
    {input : DeferredSyncInput} (hsame : SameSets state db)
    (hregular : RegularItems platform registryId mode input envs db
      ((input.items.take 100).map (syncMutation platform.toPlatform input))) :
    (File.applyDeferredSync platform.toPlatform envs state input).2.map seenSync
        = (Durable.applyDeferredSync platform registryId mode envs db input).2.map seenSync
      ∧ SameSets (File.applyDeferredSync platform.toPlatform envs state input).1
        (Durable.applyDeferredSync platform registryId mode envs db input).1 := by
  obtain ⟨hanswer, hsets⟩ := items_alike hsame hregular
  unfold File.applyDeferredSync Durable.applyDeferredSync
  dsimp only
  generalize (input.items.take 100).map (syncMutation platform.toPlatform input) = items
    at hanswer hsets ⊢
  rcases hf : syncItems (File.answerItem platform.toPlatform input) envs state items with
    ⟨state', e | events⟩ <;>
    rcases hd : syncItems (Durable.answerItem platform registryId mode input) envs db items with
      ⟨db', e' | events'⟩ <;>
    rw [hf, hd] at hanswer hsets
  · exact ⟨by simpa [Except.map] using hanswer, hsets⟩
  · cases hanswer
  · cases hanswer
  · refine ⟨?_, hsets⟩
    simp only [Except.map, Except.ok.injEq] at hanswer
    dsimp only
    exact status_alike fun status status' => seenSync_congr hanswer

/-! ## Calls alone -/

namespace Durable

open DurableRegistry (Query Reads)

variable {platform : DurableRegistry.Platform} {registryId : JsString} {mode : StorageMode}
  {env : Env} {db : Database} {m : Mutation}

/-- The steps of one call with no other call in between. -/
def Alone (platform : DurableRegistry.Platform) (registryId : JsString) (mode : StorageMode)
    (env : Env) : Database × DurableRegistry.Call → Database × DurableRegistry.Call → Prop :=
  Relation.ReflTransGen fun w w' =>
    ∃ q, DurableRegistry.advance platform registryId mode ⟨env, q⟩ w.1 w.2 = some w'

/-- A mutation that is answered. -/
def answered (m : Mutation) : Except JsString MutationResult → DurableRegistry.Call
  | .ok result => ⟨m, .returned result⟩
  | .error e => ⟨m, .failed e⟩

theorem alone_step (q : Query) {w w' : Database × DurableRegistry.Call}
    (h : DurableRegistry.advance platform registryId mode ⟨env, q⟩ w.1 w.2 = some w') :
    Alone platform registryId mode env w w' :=
  .single ⟨q, h⟩

theorem check_alone (hfails : env.fails = false) {nowMs : JsNumber} {reads : Reads}
    (hreads : reads.sets = none) (q : Query) :
    Alone platform registryId mode env (db, ⟨m, .checking nowMs reads⟩)
      (db, ⟨m, .checking nowMs (reads.query db q)⟩) :=
  alone_step q (by simp [DurableRegistry.advance, DurableRegistry.check, hreads, hfails,
    DurableRegistry.Call.to])

theorem report_alone (hfails : env.fails = false) {p : Logged} {reads : Reads}
    (hreads : reads.sets = none) (q : Query) :
    Alone platform registryId mode env (db, ⟨m, .reporting p reads⟩)
      (db, ⟨m, .reporting p (reads.query db q)⟩) :=
  alone_step q (by simp [DurableRegistry.advance, DurableRegistry.report, hreads, hfails,
    DurableRegistry.Call.to])

/-- The four queries. -/
def allReads (db : Database) : Reads :=
  (((Reads.none.query db .used).query db .revokedJtis).query db .revokedKeys).query db .auditCount

theorem allReads_sets : (allReads db).sets = some (DurableRegistry.readRegistrySets db) := rfl

theorem checkAll_alone (hfails : env.fails = false) (nowMs : JsNumber) :
    Alone platform registryId mode env (db, ⟨m, .checking nowMs .none⟩)
      (db, ⟨m, .checking nowMs (allReads db)⟩) :=
  (check_alone hfails rfl .used).trans ((check_alone hfails rfl .revokedJtis).trans
    ((check_alone hfails rfl .revokedKeys).trans (check_alone hfails rfl .auditCount)))

theorem reportAll_alone (hfails : env.fails = false) (p : Logged) :
    Alone platform registryId mode env (db, ⟨m, .reporting p .none⟩)
      (db, ⟨m, .reporting p (allReads db)⟩) :=
  (report_alone hfails rfl .used).trans ((report_alone hfails rfl .revokedJtis).trans
    ((report_alone hfails rfl .revokedKeys).trans (report_alone hfails rfl .auditCount)))

theorem finish_alone (hfails : env.fails = false) {p : Pending} (hm : p.mutation = m) :
    Alone platform registryId mode env (db, ⟨m, .finishing p⟩)
      ((finishMutation platform registryId mode env db p).1,
        answered m (finishMutation platform registryId mode env db p).2) := by
  subst hm
  unfold finishMutation
  rcases hevent : auditEvent platform.toPlatform env p.mutation.action.action p.mutation.input
    p.outcome p.errors p.nowMs with e | event
  · exact alone_step .used (by simp [DurableRegistry.advance, DurableRegistry.logEvent, hevent,
      DurableRegistry.Call.to, answered])
  · let logged : Logged := ⟨p.mutation, p.nowMs, p.decision, event⟩
    let db' := DurableRegistry.trimAudit mode (DurableRegistry.appendAudit db event)
    have hlog : Alone platform registryId mode env (db, ⟨p.mutation, .finishing p⟩)
        (db, ⟨p.mutation, .logging logged⟩) := alone_step .used (by
      simp [DurableRegistry.advance, DurableRegistry.logEvent, hevent, DurableRegistry.Call.to,
        logged])
    have happend : Alone platform registryId mode env (db, ⟨p.mutation, .logging logged⟩)
        (DurableRegistry.appendAudit db event, ⟨p.mutation, .trimming logged⟩) :=
      alone_step .used (by simp [DurableRegistry.advance, hfails, DurableRegistry.Call.to, logged])
    have htrim : Alone platform registryId mode env
        (DurableRegistry.appendAudit db event, ⟨p.mutation, .trimming logged⟩)
        (db', ⟨p.mutation, .reporting logged .none⟩) :=
      alone_step .used (by simp [DurableRegistry.advance, hfails, DurableRegistry.Call.to, db'])
    refine hlog.trans (happend.trans (htrim.trans ((reportAll_alone hfails logged).trans
      (alone_step .used ?_))))
    simp only [DurableRegistry.advance, DurableRegistry.report, allReads_sets,
      DurableRegistry.Call.to]
    rcases DurableRegistry.publicStatus platform registryId (DurableRegistry.readRegistrySets db')
      p.nowMs with e | status <;> rfl

theorem insert_alone (hfails : env.fails = false) {p : Pending} :
    Alone platform registryId mode env (db, ⟨m, .inserting p⟩)
      ((DurableRegistry.insert platform db m).1,
        ⟨m, .finishing (DurableRegistry.settle p (DurableRegistry.insert platform db m).2)⟩) := by
  by_cases hdescribed : mode = .redis ∧ (DurableRegistry.insert platform db m).2 = true
  · have hinsert : Alone platform registryId mode env (db, ⟨m, .inserting p⟩)
        ((DurableRegistry.insert platform db m).1, ⟨m, .describing
          (DurableRegistry.settle p (DurableRegistry.insert platform db m).2)⟩) :=
      alone_step .used (by
        simp only [DurableRegistry.advance, DurableRegistry.runInsert, hfails, Bool.false_eq_true,
          if_false, if_pos hdescribed, DurableRegistry.Call.to])
    exact hinsert.trans (alone_step .used (by
      simp [DurableRegistry.advance, hfails, DurableRegistry.Call.to]))
  · exact alone_step .used (by
      simp only [DurableRegistry.advance, DurableRegistry.runInsert, hfails, Bool.false_eq_true,
        if_false, if_neg hdescribed, DurableRegistry.Call.to])

theorem insertAndFinish_alone (hfails : env.fails = false) {phase : DurableRegistry.Phase}
    {p : Pending} (hm : p.mutation = m)
    (h : ∃ q, DurableRegistry.advance platform registryId mode ⟨env, q⟩ db ⟨m, phase⟩
      = some (db, DurableRegistry.toInsert platform ⟨m, phase⟩ p)) :
    Alone platform registryId mode env (db, ⟨m, phase⟩)
      ((insertAndFinish platform registryId mode env db p).1,
        answered m (insertAndFinish platform registryId mode env db p).2) := by
  obtain ⟨q, h⟩ := h
  subst hm
  unfold DurableRegistry.toInsert at h
  unfold insertAndFinish
  rcases hnow : nowIso platform.dates p.nowMs with e | text
  · rw [hnow] at h
    exact alone_step q h
  · rw [hnow] at h
    refine (alone_step q h).trans ((insert_alone hfails).trans (finish_alone hfails ?_))
    unfold DurableRegistry.settle
    split_ifs <;> rfl

/-- A mutation of a durable store is a call that no other call interrupts. -/
theorem mutate_alone (hfails : env.fails = false) (m : Mutation) :
    Alone platform registryId mode env (db, DurableRegistry.start m)
      ((mutate platform registryId mode env db m).1,
        answered m (mutate platform registryId mode env db m).2) := by
  unfold mutate
  dsimp only
  split_ifs with hids haction
  · exact (alone_step .used (by simp [DurableRegistry.advance, DurableRegistry.start,
      DurableRegistry.begin, DurableRegistry.Call.to, hids])).trans (finish_alone hfails rfl)
  · have hbegin : Alone platform registryId mode env (db, DurableRegistry.start m)
        (db, ⟨m, .checking (m.input.now.getD (.finite env.now)) .none⟩) := alone_step .used (by
      simp [DurableRegistry.advance, DurableRegistry.start, DurableRegistry.begin,
        DurableRegistry.Call.to, hids, haction])
    refine hbegin.trans ((checkAll_alone hfails _).trans ?_)
    generalize m.input.now.getD (.finite env.now) = nowMs
    rcases hdecided : DurableRegistry.decideUse platform registryId
      (DurableRegistry.readRegistrySets db) m nowMs with e | p
    · exact alone_step .used (by simp [DurableRegistry.advance, DurableRegistry.check,
        allReads_sets, hdecided, DurableRegistry.Call.to, answered])
    · have hm : p.mutation = m := by
        obtain ⟨registry, -, hbind⟩ := bind_eq_ok.1 hdecided
        obtain ⟨decision, -, hpure⟩ := bind_eq_ok.1 hbind
        cases hpure
        rfl
      dsimp only
      split_ifs with herrors
      · exact insertAndFinish_alone hfails hm ⟨.used, by simp [DurableRegistry.advance,
          DurableRegistry.check, allReads_sets, hdecided, herrors]⟩
      · exact (alone_step .used (by simp [DurableRegistry.advance, DurableRegistry.check,
          allReads_sets, hdecided, herrors, DurableRegistry.Call.to])).trans
          (finish_alone hfails hm)
  · exact insertAndFinish_alone hfails rfl ⟨.used, by simp [DurableRegistry.advance,
      DurableRegistry.begin, hids, haction]⟩

end Durable

namespace File

variable {platform : PosRegistry.Platform} {env : Env} {store : Store} {state : StoredState}
  {m : Mutation} {ref : ℕ}

/-- The steps of one call with no other call in between. -/
def Alone (platform : PosRegistry.Platform) (env : Env) :
    Store × PosRegistry.Call → Store × PosRegistry.Call → Prop :=
  Relation.ReflTransGen fun w w' => PosRegistry.advance platform env w.1 w.2 = some w'

/-- The state in memory, and what a mutation has answered. -/
structure Answers (ref : ℕ) (answer : StoredState × Except JsString MutationResult)
    (w : Store × PosRegistry.Call) : Prop where
  state : w.1.state = some ref
  object : w.1.objects[ref]? = some answer.1
  phase : w.2.phase = match answer.2 with
    | .ok result => .returned (.mutation result)
    | .error e => .failed e

theorem getElem?_setObject (hlt : ref < store.objects.length) (state : StoredState) :
    (store.setObject ref state).objects[ref]? = some state := by
  simp [Store.setObject, hlt]

/-- From the audit event on: the text is written and renamed, the event appended. -/
theorem persist_alone (hfails : env.fails = false) {p : Logged} {call : PosRegistry.Call}
    (hstate : store.state = some ref) (hobject : store.objects[ref]? = some state)
    (hphase : call.phase = .makingDir ref p) :
    ∃ store', store'.state = some ref ∧ store'.objects = store.objects
      ∧ Alone platform env (store, call) (store', call.to (.loaded (.report p) ref)) := by
  let written : Store := { store with texts := store.texts ++ [state] }
  let named : Store := { written with temps := written.temps.set env.now store.texts.length }
  let moved : Store :=
    { named with file := .text store.texts.length, temps := named.temps.erase env.now }
  let appended : Store := { moved with auditLog := moved.auditLog ++ [p.event] }
  refine ⟨appended, hstate, rfl, ?_⟩
  have hmake : PosRegistry.advance platform env store call
      = some (written, call.to (.writing env.now store.texts.length p)) := by
    simp [PosRegistry.advance, hphase, hobject, makeText, hfails, written]
  have hwrite : PosRegistry.advance platform env written
      (call.to (.writing env.now store.texts.length p))
      = some (named, call.to (.moving env.now store.texts.length p)) := by
    simp [PosRegistry.advance, PosRegistry.Call.to, writeFile, hfails, named]
  have hmove : PosRegistry.advance platform env named
      (call.to (.moving env.now store.texts.length p))
      = some (moved, call.to (.makingAuditDir p)) := by
    simp [PosRegistry.advance, PosRegistry.Call.to, PosRegistry.rename, hfails, named, moved,
      Record.get?_set_self]
  have hdir : PosRegistry.advance platform env moved (call.to (.makingAuditDir p))
      = some (moved, call.to (.appending p)) := by
    simp [PosRegistry.advance, PosRegistry.Call.to, hfails]
  have happend : PosRegistry.advance platform env moved (call.to (.appending p))
      = some (appended, call.to (.load (.report p))) := by
    simp [PosRegistry.advance, PosRegistry.Call.to, PosRegistry.appendAudit, hfails, appended]
  have hload : PosRegistry.advance platform env appended (call.to (.load (.report p)))
      = some (appended, call.to (.loaded (.report p) ref)) := by
    simp [PosRegistry.advance, PosRegistry.Call.to, load, appended, moved, named, written, hstate]
  exact .head hmake (.head hwrite (.head hmove (.head hdir (.head happend (.single hload)))))

theorem finish_alone (hfails : env.fails = false) {nowMs : JsNumber} {a : Applied}
    {call : PosRegistry.Call} (hrequest : call.request = .mutation m)
    (hphase : call.phase = .applied ref ⟨m, nowMs, a.decision, a.outcome, a.errors⟩)
    (hstate : store.state = some ref) (hobject : store.objects[ref]? = some a.state) :
    ∃ w, Alone platform env (store, call) w ∧ Answers ref (finish platform env m nowMs a) w := by
  unfold finish
  rcases hevent : auditEvent platform env m.action.action m.input a.outcome a.errors nowMs with
    e | event
  · refine ⟨(store, call.to (.failed e)), .single ?_, hstate, hobject, rfl⟩
    simp [PosRegistry.advance, hphase, hobject, PosRegistry.logEvent, hevent]
  · let p : Logged := ⟨m, nowMs, a.decision, event⟩
    have hlt := (List.getElem?_eq_some_iff.1 hobject).1
    have hlogged := getElem?_setObject hlt (a.state.logged event)
    have hlog : PosRegistry.advance platform env store call = some
        (store.setObject ref (a.state.logged event), call.to (.makingDir ref p)) := by
      simp [PosRegistry.advance, hphase, hobject, PosRegistry.logEvent, hevent, p]
    have hstate₁ : (store.setObject ref (a.state.logged event)).state = some ref := hstate
    have hphase₁ : (call.to (.makingDir ref p)).phase = .makingDir ref p := rfl
    obtain ⟨store', hstate', hobjects', hpersist⟩ :=
      persist_alone hfails hstate₁ hlogged hphase₁
    rw [← hobjects'] at hlogged
    rcases hstatus : publicStatus platform (a.state.logged event) nowMs with e | status
    · refine ⟨(store', call.to (.failed e)), .head hlog (hpersist.tail ?_), hstate', hlogged,
        by simp [PosRegistry.Call.to, Except.map, hstatus]⟩
      simp [PosRegistry.advance, PosRegistry.Call.to, hlogged, afterLoad, hstatus, p]
    · refine ⟨(store', (call.to (.loaded (.report p) ref)).report p status),
        .head hlog (hpersist.tail ?_), hstate', hlogged, ?_⟩
      · simp [PosRegistry.advance, PosRegistry.Call.to, hlogged, afterLoad, hstatus, p]
      · have houtcome := auditEvent_outcome hevent
        simp [PosRegistry.Call.report, PosRegistry.Call.to, hrequest, Except.map, hstatus, p,
          houtcome]

/-- A mutation of the file store is a call that no other call interrupts. -/
theorem mutate_alone (hfails : env.fails = false) (m : Mutation) (hstate : store.state = some ref)
    (hobject : store.objects[ref]? = some state) :
    ∃ w, Alone platform env (store, PosRegistry.start platform (.mutation m)) w
      ∧ Answers ref (mutate platform env state m) w := by
  let request : Request := .mutation m
  have hlt := (List.getElem?_eq_some_iff.1 hobject).1
  have htake : PosRegistry.advance platform env store ⟨request, [some m], [], .next⟩
      = some (store, ⟨request, [], [], .load (.mutate m)⟩) := by
    simp [PosRegistry.advance, nextWork]
  have hload : PosRegistry.advance platform env store ⟨request, [], [], .load (.mutate m)⟩
      = some (store, ⟨request, [], [], .loaded (.mutate m) ref⟩) := by
    simp [PosRegistry.advance, load, hstate, PosRegistry.Call.to]
  unfold mutate
  dsimp only
  generalize hnow : m.input.now.getD (.finite env.now) = nowMs
  rcases happly : apply platform state m nowMs with e | a
  · refine ⟨(store, ⟨request, [], [], .failed e⟩), .head htake (.head hload (.single ?_)), hstate,
      hobject, rfl⟩
    simp [PosRegistry.advance, hobject, afterLoad, hnow, happly, PosRegistry.Call.to]
  · let applied : PosRegistry.Call :=
      ⟨request, [], [], .applied ref ⟨m, nowMs, a.decision, a.outcome, a.errors⟩⟩
    have happlied : PosRegistry.advance platform env store
        ⟨request, [], [], .loaded (.mutate m) ref⟩
          = some (store.setObject ref a.state, applied) := by
      simp [PosRegistry.advance, hobject, afterLoad, hnow, happly, PosRegistry.Call.to, applied]
    have hstate₁ : (store.setObject ref a.state).state = some ref := hstate
    have hrequest : applied.request = .mutation m := rfl
    obtain ⟨w, hw, hanswers⟩ :=
      finish_alone hfails hrequest rfl hstate₁ (getElem?_setObject hlt a.state)
    exact ⟨w, .head htake (.head hload (.head happlied hw)), hanswers⟩

end File

/-! ## Every sequence -/

section Run

variable {env : Env} {calls : List Call}

theorem call_alike {state : StoredState} {db : Database} {call : Call} (hsame : SameSets state db)
    (hregular : RegularCall platform registryId mode db call) :
    (fileCall platform state call).2 = (durableCall platform registryId mode db call).2
      ∧ SameSets (fileCall platform state call).1
        (durableCall platform registryId mode db call).1 := by
  unfold RegularCall at hregular
  unfold fileCall durableCall
  split at hregular
  · exact mutate_alike hsame hregular
  · exact applyDeferredSync_alike hsame hregular

theorem RegularRun.sameSets (h : RegularRun platform registryId mode calls) :
    ∀ {before after : List Call}, calls = before ++ after →
      SameSets (fileAfter platform registryId env before)
        (databaseAfter platform registryId mode before) := by
  intro before
  induction before using List.reverseRecOn with
  | nil => exact fun _ => ⟨fun _ => Iff.rfl, fun _ => Iff.rfl, fun _ => Iff.rfl⟩
  | append_singleton before call ih =>
    intro after hcalls
    rw [List.append_assoc, List.singleton_append] at hcalls
    unfold fileAfter databaseAfter
    rw [List.foldl_concat, List.foldl_concat]
    exact (call_alike (ih hcalls) (h before call after hcalls)).2

/-- Where each call is regular, the file store and a durable store are interchangeable. -/
theorem interchangeable_of_regular (platform : DurableRegistry.Platform) (registryId : JsString)
    (mode : StorageMode) (env : Env) (calls : List Call)
    (h : RegularRun platform registryId mode calls) :
    Interchangeable platform registryId mode env calls := by
  intro before call after hcalls
  refine ⟨(call_alike (h.sameSets hcalls) (h before call after hcalls)).1, ?_⟩
  have hnext : calls = (before ++ [call]) ++ after := by
    rw [hcalls, List.append_assoc, List.singleton_append]
  exact h.sameSets hnext

/-! ## Three calls, and a revocation without a time -/

def callOf (action : MutationAction) : Call :=
  ⟨.mutation ⟨action, useOf tokenA⟩, fun _ => envAt 0⟩

theorem regular_callOf (action : MutationAction) (db : Database) :
    RegularCall DurableRegistry.tablePlatform registryId mode db (callOf action) := by
  have htime : timeClip (.finite 1750000000000) ≠ none := by decide
  cases action with
  | markUsed => exact fun hkey => absurd hkey (by decide)
  | revokeToken => exact fun _ _ => htime
  | revokeKey => exact fun _ _ => htime

theorem interchangeable_of_regular_thrice :
    Interchangeable DurableRegistry.tablePlatform POS_AGID_SECURE_REGISTRY_ID .sqlite (envAt 0)
        [callOf .markUsed, callOf .markUsed, callOf .revokeToken]
      ∧ (databaseAfter DurableRegistry.tablePlatform POS_AGID_SECURE_REGISTRY_ID .sqlite
        [callOf .markUsed, callOf .markUsed, callOf .revokeToken]).usedJtis = [tokenA] := by
  refine ⟨interchangeable_of_regular _ _ _ _ _ fun before call after hcalls => ?_,
    by decide +kernel⟩
  have hmem : call ∈ [callOf .markUsed, callOf .markUsed, callOf .revokeToken] := by simp [hcalls]
  have hcall : ∃ action, call = callOf action := by
    rcases List.mem_cons.1 hmem with rfl | hmem
    · exact ⟨_, rfl⟩
    · rcases List.mem_cons.1 hmem with rfl | hmem
      · exact ⟨_, rfl⟩
      · exact ⟨_, List.mem_singleton.1 hmem⟩
  obtain ⟨action, rfl⟩ := hcall
  exact regular_callOf action _

/-- A deferred sync of one revocation, with a text for its time that is none. -/
def undatedSync : Call where
  request := .applyDeferredSync {
    items := [{
      action := some .revokeToken
      keyId := none
      jti := some tokenA
      terminalId := none
      operatorId := none
      reason := none
      createdAt := some (js "yesterday") }]
    terminalId := none
    operatorId := none
    requestId := none
    now := some (.finite 1750000000000) }
  envs _ := envAt 0

/-- The file store has revoked the token when it finds no time for its event; SQLite has not. -/
theorem not_interchangeable :
    ¬ ∀ calls, Interchangeable DurableRegistry.tablePlatform POS_AGID_SECURE_REGISTRY_ID .sqlite
      (envAt 0) calls := by
  intro h
  obtain ⟨-, hsame⟩ := h [undatedSync] [] undatedSync [] rfl
  have hfile : tokenA ∈ (fileAfter DurableRegistry.tablePlatform POS_AGID_SECURE_REGISTRY_ID
      (envAt 0) [undatedSync]).revokedJtis := by decide
  have hsqlite : tokenA ∉ (databaseAfter DurableRegistry.tablePlatform POS_AGID_SECURE_REGISTRY_ID
      .sqlite [undatedSync]).revokedJtis := by decide
  exact hsqlite ((hsame.revoked tokenA).1 hfile)

end Run

end Agid.RegistryAdapters
