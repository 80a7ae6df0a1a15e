import Agid.Proofs.PosRegistry

/-!
# A token is used once

While no second load puts another state in the place of the first, a `markUsed` is decided on the
one state there is, so each token is accepted once and every later call for it is a conflict.
Two first loads that overlap each assign a state, and both of their calls are accepted.
-/

namespace Agid.PosRegistry

open AgidSecurePos

variable {platform : Platform} {given : Option FileText}

/-! ## One decision -/

/-- The state revokes what the file did. -/
structure Lists (given : Option FileText) (state : StoredState) : Prop where
  tokens : ∀ jti ∈ state.revokedJtis, ∃ raw, given = some (.object raw)
    ∧ jti ∈ storedRevokedJtis raw
  keys : ∀ key ∈ state.revokedKeyIds, ∃ raw, given = some (.object raw)
    ∧ key ∈ storedRevokedKeyIds raw

theorem lists_parseState {env : Env} {registryId : JsString} {state : StoredState}
    (h : parseState platform env registryId given = some state) : Lists given state := by
  rcases given with _ | _ | _ | raw
  · cases h
    exact ⟨by simp [initialState], by simp [initialState]⟩
  · cases h
  · cases h
    exact ⟨by simp [initialState], by simp [initialState]⟩
  · cases h
    exact ⟨fun jti h => ⟨raw, rfl, h⟩, fun key h => ⟨raw, rfl, h⟩⟩

theorem not_mem_setFromIterable {values : List JsString} {label : JsString}
    (htrim : ∀ value ∈ values, trim value = value) (h : label ∉ values) :
    label ∉ setFromIterable values := by
  rw [mem_setFromIterable]
  rintro ⟨-, value, hv, rfl⟩
  rw [htrim value hv] at h
  exact h hv

theorem Lists.unrevoked {state : StoredState} (h : Lists given state) {input : MutationInput}
    (hm : Markable platform given input) :
    cleanJti platform input.jti ∉ setFromIterable state.revokedJtis
      ∧ cleanKeyId input.keyId ∉ setFromIterable state.revokedKeyIds := by
  constructor
  · refine not_mem_setFromIterable (fun value hv => ?_) fun hmem => ?_
    · obtain ⟨raw, -, hv⟩ := h.tokens value hv
      exact trim_of_matchesJti (List.of_mem_filter hv)
    · obtain ⟨raw, hraw, hmem⟩ := h.tokens _ hmem
      exact hm.token_kept raw hraw hmem
  · refine not_mem_setFromIterable (fun value hv => ?_) fun hmem => ?_
    · obtain ⟨raw, -, hv⟩ := h.keys value hv
      exact trim_of_matchesKeyId (List.of_mem_filter hv)
    · obtain ⟨raw, hraw, hmem⟩ := h.keys _ hmem
      exact hm.key_kept raw hraw hmem

/-- A key and a token that are not revoked are accepted or in conflict. -/
theorem Checked.outcome {env : Env} {state : StoredState} {input : MutationInput} {a : Applied}
    (h : Checked platform state input (input.now.getD (.finite env.now)) a)
    (hl : Lists given state) (hm : Markable platform given input) :
    a.outcome = .accepted ∨ a.outcome = .conflict := by
  obtain ⟨registry, decision, hr, hd, herrors, houtcome⟩ := h.decided
  obtain ⟨hused, hrevoked, hkeys, t, ht, hfresh⟩ := snapshot_lists hr
  rw [if_neg hm.keyId, if_neg hm.jti, List.nil_append, List.nil_append] at herrors
  have hk : (1 : ℚ) ≤ AGID_SECURE_POS_REGISTRY_FRESHNESS_SECONDS * 1000 := by
    norm_num [AGID_SECURE_POS_REGISTRY_FRESHNESS_SECONDS]
  have hzero : t ≠ 0 := by
    rintro rfl
    rcases hn : input.now with _ | n
    · rw [hn] at ht
      exact timeClip_plus_nat env.now hk ht
    · rw [hn] at ht
      exact hm.now n hn ht
  have hstale := not_stale (timeClip_bound ht) hfresh hzero (not_atLeast_plus hk ht)
  obtain ⟨htoken, hkey⟩ := hl.unrevoked hm
  have hlabel : cleanLabel (some (cleanJti platform input.jti)) = cleanJti platform input.jti :=
    trim_of_matchesJti (cleanJti_matches hm.jti)
  have hlabel' : cleanLabel (some (cleanKeyId input.keyId)) = cleanKeyId input.keyId :=
    trim_of_matchesKeyId (cleanKeyId_matches hm.keyId)
  have hnil := verify_eq_nil hd
  have hmem := alreadyUsed_mem hd
  rw [hlabel, hlabel', hkeys, hrevoked] at hnil
  rw [hlabel] at hmem
  rw [houtcome, herrors]
  split_ifs with h1 h2
  · exact .inl rfl
  · exact .inr rfl
  · refine absurd (hnil.2 ⟨hstale, fun h => hkey h.2, fun h => htoken h.2, ?_, rfl⟩) h1
    rw [← hmem]
    exact h2

/-! ## Every run -/

structure MarkInv (given : Option FileText) (store : Store) : Prop where
  file : store.given = given
  sound : Sound store
  lists : ∀ state, store.current = some state → Lists given state

structure MarkOwn (platform : Platform) (given : Option FileText) (store : Store) (call : Call) :
    Prop where
  own : Own platform store call
  request : ∃ input, call.request = .mutation ⟨.markUsed, input⟩ ∧ Markable platform given input
  text : store.state = none → ∀ k text, call.phase = .read k text → text = given
  outcomes : ∀ m outcome, (m, outcome) ∈ call.decided → outcome = .accepted ∨ outcome = .conflict
  returned : ∀ result, call.phase = .returned (.mutation result) →
    ∃ m, (some m, result.event) ∈ call.done

/-- No token is accepted by both. -/
def MarkApart (platform : Platform) (call other : Call) : Prop :=
  ∀ m m', (m, .accepted) ∈ call.decided → (m', .accepted) ∈ other.decided →
    cleanJti platform m.input.jti ≠ cleanJti platform m'.input.jti

section Step

variable {env : Env} {store store' : Store} {call call' other : Call}

/-- The one mutation of the call. -/
theorem MarkOwn.mutation (h : MarkOwn platform given store call) {input : MutationInput}
    (hr : call.request = .mutation ⟨.markUsed, input⟩) {m : Mutation} (hm : m ∈ call.mutations) :
    m = ⟨.markUsed, input⟩ := by
  have := h.own.requested m hm
  rw [hr] at this
  simpa [Request.start] using this

theorem mem_mutations_of_decided {m : Mutation} {outcome : Outcome}
    (h : (m, outcome) ∈ call.decided) : m ∈ call.mutations := by
  unfold Call.decided at h
  unfold Call.mutations
  rcases List.mem_append.1 h with h | h
  · refine List.mem_append_left _ (List.mem_append_right _ ?_)
    unfold Phase.decided at h
    unfold Phase.mutations
    split at h <;> simp_all [Waiting.decided]
    all_goals split at h <;> simp_all [Waiting.mutations]
  · refine List.mem_append_right _ (List.reduceOption_mem_iff.2 ?_)
    obtain ⟨d, hd, heq⟩ := List.mem_filterMap.1 h
    obtain ⟨m', hm', heq⟩ := Option.map_eq_some_iff.1 heq
    cases heq
    exact List.mem_map.2 ⟨d, hd, hm'⟩

/-- A step's decision is a check of the call's own token. -/
theorem MarkOwn.checked (h : MarkOwn platform given store call)
    (he : Effect platform env store call store' call') {m : Mutation} {outcome : Outcome}
    (hmem : (m, outcome) ∈ call'.decided) {state : StoredState} {a : Applied}
    (hd : Decides platform env store store' m outcome state a) :
    Checked platform state m.input (m.input.now.getD (.finite env.now)) a
      ∧ Markable platform given m.input := by
  obtain ⟨input, hr, hmark⟩ := h.request
  obtain rfl := h.mutation hr (he.mutations (mem_mutations_of_decided hmem))
  exact ⟨markUsed_checked hd.applied, hmark⟩

theorem MarkInv.step (hi : MarkInv given store) (h : MarkOwn platform given store call)
    (he : Effect platform env store call store' call') (hkeeps : KeepsState store store') :
    MarkInv given store' := by
  refine ⟨he.given.trans hi.file, hi.sound.step h.own he, fun state hs => ?_⟩
  cases he with
  | assign phase parsed =>
    have htext := h.text (hi.sound.first_load hkeeps) _ _ phase
    subst htext
    simp only [Store.current, Option.bind_some, List.getElem?_concat_length,
      Option.some.injEq] at hs
    subst hs
    exact lists_parseState parsed
  | @apply m ref state nowMs a phase object time applied =>
    have href := h.own.held _ (by rw [phase]; rfl)
    have hl := hi.lists _ (Store.current_of_object href object)
    rw [Store.current_setObject href object, Option.some.injEq] at hs
    subst hs
    obtain ⟨input, hr, -⟩ := h.request
    have hmem : m ∈ call.mutations := by
      simp [Call.mutations, phase, Phase.mutations, Waiting.mutations]
    obtain rfl := h.mutation hr hmem
    rw [(markUsed_checked applied).state]
    split_ifs
    · exact ⟨hl.tokens, hl.keys⟩
    · exact hl
  | log phase object outcome =>
    have href := h.own.held _ (by rw [phase]; rfl)
    have hl := hi.lists _ (Store.current_of_object href object)
    rw [Store.current_setObject href object, Option.some.injEq] at hs
    subst hs
    exact ⟨hl.tokens, hl.keys⟩
  | _ => exact hi.lists state hs

theorem MarkOwn.step (hi : MarkInv given store) (h : MarkOwn platform given store call)
    (he : Effect platform env store call store' call') (hkeeps : KeepsState store store') :
    MarkOwn platform given store' call' := by
  refine ⟨h.own.step he hkeeps, ?_, fun hnone k text htext => ?_, fun m outcome hm => ?_,
    fun result hresult => ?_⟩
  · rw [he.request]
    exact h.request
  · have hcall := h.text (he.state_none hnone)
    cases he with
    | read phase =>
      cases htext
      rw [Store.fileText, hi.sound.file hnone]
      exact hi.file
    | report phase =>
      unfold Call.report at htext
      split at htext <;> cases htext
    | _ => cases htext
  · rcases he.decided h.own.held hm with hd | ⟨state, a, hd⟩
    · exact h.outcomes m outcome hd
    · obtain ⟨hc, hmark⟩ := h.checked he hm hd
      rw [← hd.outcome]
      exact hc.outcome (hi.lists state hd.current) hmark
  · cases he with
    | report phase =>
      unfold Call.report at hresult ⊢
      split at hresult
      · cases hresult
        exact ⟨_, List.mem_append_right _ (List.mem_singleton_self _)⟩
      · cases hresult
    | _ => cases hresult

theorem MarkOwn.frame (h : MarkOwn platform given store call)
    (ho : MarkOwn platform given store other)
    (he : Effect platform env store call store' call') (hkeeps : KeepsState store store') :
    MarkOwn platform given store' other :=
  ⟨h.own.frame ho.own he hkeeps, ho.request, fun hnone => ho.text (he.state_none hnone),
    ho.outcomes, ho.returned⟩

theorem markOwn_start {input : MutationInput} (hm : Markable platform given input) :
    MarkOwn platform given store (start platform (.mutation ⟨.markUsed, input⟩)) := by
  refine ⟨own_start _, ⟨input, rfl, hm⟩, fun _ k text h => ?_, fun m outcome h => ?_,
    fun result h => ?_⟩
  · cases h
  · simp [Call.decided, start, Phase.decided] at h
  · cases h

theorem MarkApart.step (h : MarkOwn platform given store call)
    (ho : MarkOwn platform given store other) (ha : MarkApart platform call other)
    (he : Effect platform env store call store' call') : MarkApart platform call' other := by
  intro m m' hm hm'
  rcases he.decided h.own.held hm with hd | ⟨state, a, hd⟩
  · exact ha m m' hd hm'
  · obtain ⟨state', hs', hr⟩ := ho.own.recorded m' hm'
    rw [hd.current, Option.some.injEq] at hs'
    subst hs'
    obtain ⟨input, hreq, -⟩ := ho.request
    obtain rfl := ho.mutation hreq (mem_mutations_of_decided hm')
    intro heq
    have hfresh := ((h.checked he hm hd).1.fresh hd.outcome).1
    rw [heq] at hfresh
    exact hfresh hr

end Step

/-- The calls are decided one after the other on one state. -/
def markRule (platform : Platform) (given : Option FileText) :
    Tasks.Rule (system platform) (marking platform given) where
  inv := MarkInv given
  own := MarkOwn platform given
  apart := MarkApart platform
  symm h m m' hm hm' := (h m' m hm' hm).symm
  start {store r} hi hr := by
    obtain ⟨input, rfl, hm⟩ := hr
    exact markOwn_start hm
  start_apart _ _ _ _ m m' hm _ := by simp [Call.decided, system, start, Phase.decided] at hm
  advance hi h hnext hkeeps :=
    have he := advance_effect hnext
    ⟨hi.step h he hkeeps, h.step hi he hkeeps⟩
  frame _ h ho ha hnext hkeeps _ :=
    have he := advance_effect hnext
    ⟨h.frame ho he hkeeps, ha.step h ho he⟩

theorem markInv_init (registryId : JsString) : MarkInv given (Store.init registryId given) where
  file := rfl
  sound := sound_init registryId given
  lists state h := by cases h

/-! ## Two uses of a token -/

theorem markable_useA : Markable tablePlatform none (useOf tokenA) := markable_useOf (by decide)

def markedTokens (w : Tasks.World Store Call) : List (Option (JsString × Outcome)) :=
  w.tasks.map (markedToken tablePlatform)

theorem marked_of_tokens {w : Tasks.World Store Call} {i : ℕ} {jti : JsString}
    {outcome : Outcome} (h : (markedTokens w)[i]? = some (some (jti, outcome))) :
    ∃ event, event.outcome = outcome ∧ Marked tablePlatform w i jti event := by
  rw [markedTokens, List.getElem?_map] at h
  obtain ⟨call, hcall, h⟩ := Option.map_eq_some_iff.1 h
  exact marked_of_token hcall h

/-! ## Every run -/

theorem singleUse_of_keepsState (registryId : JsString) {w : Tasks.World Store Call}
    (h : Tasks.Run (system platform) (marking platform given) (.init registryId given) w) :
    SingleUse platform w := by
  have hw := (markRule platform given).holds (markInv_init registryId) h
  have hdone : ∀ i jti event, Marked platform w i jti event → ∃ call, w.tasks[i]? = some call
      ∧ MarkOwn platform given w.store call ∧ ∃ m, (m, event.outcome) ∈ call.decided
        ∧ cleanJti platform m.input.jti = jti := by
    rintro i jti event ⟨call, hcall, input, result, hr, hphase, rfl, rfl⟩
    have ho := hw.own call (List.mem_of_getElem? hcall)
    obtain ⟨m, hm⟩ := MarkOwn.returned ho result hphase
    have hd : (m, result.event.outcome) ∈ call.decided :=
      List.mem_append_right _ (List.mem_filterMap.2 ⟨_, hm, rfl⟩)
    refine ⟨call, hcall, ho, m, hd, ?_⟩
    rw [MarkOwn.mutation ho hr (mem_mutations_of_decided hd)]
  intro i jti event hmarked
  obtain ⟨call, hcall, ho, m, hm, hjti⟩ := hdone i jti event hmarked
  refine ⟨ho.outcomes m _ hm, fun j event' hmarked' he he' => ?_⟩
  obtain ⟨call', hcall', -, m', hm', hjti'⟩ := hdone j jti event' hmarked'
  by_contra hij
  have ha := (markRule platform given).apart_get hw.apart hcall hcall' hij
  rw [he] at hm
  rw [he'] at hm'
  exact ha m m' hm hm' (hjti.trans hjti'.symm)

/-- The second call comes to its load when the first has assigned the state. -/
theorem singleUse_of_keepsState_twice : ∃ w, SingleUse tablePlatform w
    ∧ markedTokens w = [some (tokenA, .accepted), some (tokenA, .conflict)] := by
  classical
  let : DecidableRel (marking tablePlatform none).keeps := inferInstanceAs (DecidableRel KeepsState)
  let : DecidableRel (marking tablePlatform none).meet := fun _ _ => .isTrue trivial
  obtain ⟨w, hw, htokens⟩ := (twoCalls_run (c := marking tablePlatform none)
    ⟨_, rfl, markable_useA⟩ ⟨_, rfl, markable_useA⟩ fun _ _ => trivial).play
    markedTokens (a := [some (tokenA, .accepted), some (tokenA, .conflict)])
    (List.replicate 4 (.advance 0 (envAt 0)) ++ inTurns 9
      ++ List.replicate 2 (.advance 1 (envAt 1))) (by decide +kernel)
  exact ⟨w, singleUse_of_keepsState _ hw, htokens⟩

/-- The calls of `marking`, whatever their loads do to the state. -/
def anyLoad (platform : Platform) (given : Option FileText) :
    Tasks.Condition Store Call Request :=
  { marking platform given with keeps := fun _ _ => True }

/-- Both calls find no state and read the file, and each assigns a state of its own. -/
theorem overlapping_loads_not_singleUse :
    ¬ ∀ w, Tasks.Run (system tablePlatform) (anyLoad tablePlatform none)
      (.init POS_AGID_SECURE_REGISTRY_ID none) w → SingleUse tablePlatform w := by
  intro h
  classical
  let : DecidableRel (anyLoad tablePlatform none).keeps := fun _ _ => .isTrue trivial
  let : DecidableRel (anyLoad tablePlatform none).meet := fun _ _ => .isTrue trivial
  obtain ⟨w, hw, htokens⟩ := (twoCalls_run (c := anyLoad tablePlatform none)
    ⟨_, rfl, markable_useA⟩ ⟨_, rfl, markable_useA⟩ fun _ _ => trivial).play
    markedTokens (a := [some (tokenA, .accepted), some (tokenA, .accepted)])
    (inTurns 13) (by decide +kernel)
  obtain ⟨event, he, hm⟩ := marked_of_tokens (i := 0) (by rw [htokens]; rfl)
  obtain ⟨event', he', hm'⟩ := marked_of_tokens (i := 1) (by rw [htokens]; rfl)
  exact absurd ((h w hw 0 tokenA event hm).2 1 event' hm' he he') (by decide)

end Agid.PosRegistry
