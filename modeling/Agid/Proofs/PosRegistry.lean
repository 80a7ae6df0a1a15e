import Agid.Proofs.SecurePos
import Agid.Proofs.Clock
import Agid.PosRegistry

/-!
# Steps of the POS registry

What one step of a call does to the store and to the call, and from it what stays while the state
in memory does: the state only grows, and what a call has accepted is in it.
-/

namespace Agid.PosRegistry

open AgidSecurePos

variable {platform : Platform}

/-! ## Clean tokens and keys -/

theorem cleanJti_matches {value : Option JsString} (h : cleanJti platform value ≠ []) :
    matchesJti (cleanJti platform value) := by
  simp only [cleanJti] at h ⊢
  split_ifs at h ⊢ with hm
  · exact hm
  · exact absurd rfl h

theorem cleanKeyId_matches {value : Option JsString} (h : cleanKeyId value ≠ []) :
    matchesKeyId (cleanKeyId value) := by
  simp only [cleanKeyId] at h ⊢
  split_ifs at h ⊢ with hm
  · exact hm
  · exact absurd rfl h

/-- A clean array, stored and read again, is itself as a set. -/
theorem mem_readStoredArray {l : List JsString} {s : JsString} (hs : trim s = s) (hne : s ≠ [])
    (h : s ∈ l) : s ∈ readStoredArray (some (l.map some)) := by
  refine SortedSet.mem_ofList.2 (List.mem_filter.2 ⟨List.mem_map.2 ⟨some s, ?_, hs⟩, by simpa⟩)
  exact List.mem_map_of_mem h

/-! ## Growing states -/

structure StoredState.Within (a b : StoredState) : Prop where
  used : a.usedJtis ⊆ b.usedJtis
  revoked : a.revokedJtis ⊆ b.revokedJtis
  keys : a.revokedKeyIds ⊆ b.revokedKeyIds

namespace StoredState.Within

theorem refl (a : StoredState) : a.Within a :=
  ⟨List.Subset.refl _, List.Subset.refl _, List.Subset.refl _⟩

theorem trans {a b c : StoredState} (h : a.Within b) (h' : b.Within c) : a.Within c :=
  ⟨List.Subset.trans h.used h'.used, List.Subset.trans h.revoked h'.revoked, List.Subset.trans h.keys h'.keys⟩

theorem logged (a : StoredState) (event : AuditEvent) : a.Within (a.logged event) :=
  ⟨List.Subset.refl _, List.Subset.refl _, List.Subset.refl _⟩

end StoredState.Within

theorem Recorded.mono {m : Mutation} {a b : StoredState} (h : a.Within b)
    (hm : Recorded platform m a) : Recorded platform m b := by
  unfold Recorded at hm ⊢
  split at hm
  · exact h.used hm
  · exact h.revoked hm
  · exact h.keys hm

theorem within_ofList_append {l : List JsString} {s : JsString} :
    l ⊆ SortedSet.ofList (l ++ [s]) :=
  fun _ h => SortedSet.mem_ofList.2 (List.mem_append_left _ h)

theorem mem_ofList_append_self {l : List JsString} {s : JsString} :
    s ∈ SortedSet.ofList (l ++ [s]) :=
  SortedSet.mem_ofList.2 (List.mem_append_right _ List.mem_cons_self)

/-! ## What `apply` answers -/

/-- The registry check of `markUsed`, with the answer made from it. -/
structure Checked (platform : Platform) (state : StoredState) (input : MutationInput)
    (nowMs : JsNumber) (a : Applied) : Prop where
  decided : ∃ registry decision, snapshotFromState platform state nowMs = .ok registry
    ∧ verifyAgidSecurePosRegistry platform.dates (some registry) (some (cleanKeyId input.keyId))
      (some (cleanJti platform input.jti)) none nowMs = .ok decision
    ∧ a.errors = (if cleanKeyId input.keyId = [] then [js "key-id-invalid"] else [])
      ++ (if cleanJti platform input.jti = [] then [js "jti-invalid"] else []) ++ decision.errors
    ∧ a.outcome = if a.errors = [] then .accepted
      else if js "token-already-used" ∈ decision.errors then .conflict else .rejected
  state : a.state = if a.errors = [] then { state with
    usedJtis := SortedSet.ofList (state.usedJtis ++ [cleanJti platform input.jti]) } else state

theorem markUsed_checked {state : StoredState} {input : MutationInput} {nowMs : JsNumber}
    {a : Applied} (h : markUsed platform state input nowMs = .ok a) :
    Checked platform state input nowMs a := by
  obtain ⟨registry, hr, h⟩ := bind_eq_ok.1 h
  obtain ⟨decision, hd, h⟩ := bind_eq_ok.1 h
  cases h
  exact ⟨⟨registry, decision, hr, hd, rfl, rfl⟩, rfl⟩

theorem snapshot_lists {state : StoredState} {nowMs : JsNumber} {registry : RegistrySnapshot}
    (h : snapshotFromState platform state nowMs = .ok registry) :
    registry.usedJtis = state.usedJtis ∧ registry.revokedJtis = state.revokedJtis
      ∧ registry.revokedKeyIds = state.revokedKeyIds
      ∧ ∃ t, timeClip (nowMs.plus (AGID_SECURE_POS_REGISTRY_FRESHNESS_SECONDS * 1000)) = some t
        ∧ registry.freshUntil = some (platform.dates.toISOString t) := by
  obtain ⟨checkedAt, -, h⟩ := bind_eq_ok.1 h
  obtain ⟨fresh, hfresh, h⟩ := bind_eq_ok.1 h
  obtain ⟨t, ht, rfl⟩ := nowIso_ok hfresh
  cases h
  exact ⟨rfl, rfl, rfl, t, ht, rfl⟩

theorem apply_within {state : StoredState} {m : Mutation} {nowMs : JsNumber} {a : Applied}
    (h : apply platform state m nowMs = .ok a) : state.Within a.state := by
  unfold apply at h
  split at h
  · rw [(markUsed_checked h).state]
    split_ifs
    · exact ⟨within_ofList_append, List.Subset.refl _, List.Subset.refl _⟩
    · exact .refl _
  · cases h
    simp only [revokeToken]
    split_ifs
    · exact .refl _
    · exact ⟨List.Subset.refl _, within_ofList_append, List.Subset.refl _⟩
  · cases h
    simp only [revokeKey]
    split_ifs
    · exact .refl _
    · exact ⟨List.Subset.refl _, List.Subset.refl _, within_ofList_append⟩

theorem Checked.accepted {state : StoredState} {input : MutationInput} {nowMs : JsNumber}
    {a : Applied} (h : Checked platform state input nowMs a) :
    a.outcome = .accepted ↔ a.errors = [] := by
  obtain ⟨registry, decision, -, -, -, houtcome⟩ := h.decided
  rw [houtcome]
  split_ifs with h1 h2 <;> simp [h1]

/-- An accepted use of a token is the first one. -/
theorem Checked.fresh {state : StoredState} {input : MutationInput} {nowMs : JsNumber}
    {a : Applied} (h : Checked platform state input nowMs a) (ha : a.outcome = .accepted) :
    cleanJti platform input.jti ∉ state.usedJtis
      ∧ cleanJti platform input.jti ∈ a.state.usedJtis := by
  have herr := h.accepted.1 ha
  obtain ⟨registry, decision, hr, hd, herrors, -⟩ := h.decided
  rw [herr, eq_comm, List.append_eq_nil_iff, List.append_eq_nil_iff] at herrors
  obtain ⟨⟨-, hj⟩, hdec⟩ := herrors
  have hj' : cleanJti platform input.jti ≠ [] := by
    intro hnil
    simp [hnil] at hj
  have htrim := trim_of_matchesJti (cleanJti_matches hj')
  have hlabel : cleanLabel (some (cleanJti platform input.jti)) = cleanJti platform input.jti :=
    htrim
  obtain ⟨-, -, -, hused, -⟩ := (verify_eq_nil hd).1 hdec
  rw [hlabel, (snapshot_lists hr).1, mem_setFromIterable] at hused
  refine ⟨fun hmem => hused ⟨hj', hj', _, hmem, htrim⟩, ?_⟩
  rw [h.state, if_pos herr]
  exact mem_ofList_append_self

theorem apply_recorded {state : StoredState} {m : Mutation} {nowMs : JsNumber} {a : Applied}
    (h : apply platform state m nowMs = .ok a) (ha : a.outcome = .accepted) :
    Recorded platform m a.state := by
  unfold apply at h
  unfold Recorded
  split at h
  · exact ((markUsed_checked h).fresh ha).2
  · cases h
    simp only [revokeToken] at ha ⊢
    split_ifs at ha ⊢
    exact mem_ofList_append_self
  · cases h
    simp only [revokeKey] at ha ⊢
    split_ifs at ha ⊢
    exact mem_ofList_append_self

/-- The token or the key of the mutation is a clean one. -/
def Valid (platform : Platform) (m : Mutation) : Prop :=
  match m.action with
  | .markUsed | .revokeToken => cleanJti platform m.input.jti ≠ []
  | .revokeKey => cleanKeyId m.input.keyId ≠ []

theorem Checked.jti_ne_nil {state : StoredState} {input : MutationInput} {nowMs : JsNumber}
    {a : Applied} (h : Checked platform state input nowMs a) (ha : a.outcome = .accepted) :
    cleanJti platform input.jti ≠ [] := by
  obtain ⟨registry, decision, -, -, herrors, -⟩ := h.decided
  rw [h.accepted.1 ha, eq_comm, List.append_eq_nil_iff, List.append_eq_nil_iff] at herrors
  intro hnil
  simp [hnil] at herrors

theorem apply_valid {state : StoredState} {m : Mutation} {nowMs : JsNumber} {a : Applied}
    (h : apply platform state m nowMs = .ok a) (ha : a.outcome = .accepted) : Valid platform m := by
  obtain ⟨action, input⟩ := m
  cases action with
  | markUsed => exact (markUsed_checked h).jti_ne_nil ha
  | revokeToken =>
    cases h
    simp only [revokeToken] at ha
    split_ifs at ha with hnil
    exact hnil
  | revokeKey =>
    cases h
    simp only [revokeKey] at ha
    split_ifs at ha with hnil
    exact hnil

/-- What is in a state is in what its text reads as. -/
theorem Recorded.raw {env : Env} {registryId : JsString} {m : Mutation} {state : StoredState}
    (h : Recorded platform m state) (hv : Valid platform m) :
    Recorded platform m (normalizeState platform env registryId state.raw) := by
  have htoken : ∀ {l : List JsString}, cleanJti platform m.input.jti ≠ [] →
      cleanJti platform m.input.jti ∈ l →
        cleanJti platform m.input.jti ∈ (readStoredArray (some (l.map some))).filter matchesJti := by
    intro l hne hmem
    have hj := cleanJti_matches hne
    exact List.mem_filter.2 ⟨mem_readStoredArray (trim_of_matchesJti hj) hne hmem, hj⟩
  unfold Recorded at h ⊢
  unfold Valid at hv
  split at h
  · exact htoken (by simpa [*] using hv) h
  · exact htoken (by simpa [*] using hv) h
  · have hne : cleanKeyId m.input.keyId ≠ [] := by simpa [*] using hv
    have hk := cleanKeyId_matches hne
    exact List.mem_filter.2 ⟨mem_readStoredArray (trim_of_matchesKeyId hk) hne h, hk⟩

/-! ## One step -/

def Waiting.mutations : Waiting → List Mutation
  | .mutate m => [m]
  | .report p => [p.mutation]
  | .finish _ => []

def Phase.mutations : Phase → List Mutation
  | .load k | .reading k | .read k _ | .loaded k _ => k.mutations
  | .applied _ p => [p.mutation]
  | .makingDir _ p | .writing _ _ p | .moving _ _ p | .makingAuditDir p | .appending p =>
    [p.mutation]
  | .next | .returned _ | .failed _ => []

/-- The mutations of a call, those to come and those done. -/
def Call.mutations (call : Call) : List Mutation :=
  call.work.reduceOption ++ call.phase.mutations ++ (call.done.map Prod.fst).reduceOption

def Waiting.decided : Waiting → List (Mutation × Outcome)
  | .report p => [(p.mutation, p.event.outcome)]
  | .mutate _ | .finish _ => []

def Phase.decided : Phase → List (Mutation × Outcome)
  | .load k | .reading k | .read k _ | .loaded k _ => k.decided
  | .applied _ p => [(p.mutation, p.outcome)]
  | .makingDir _ p | .writing _ _ p | .moving _ _ p | .makingAuditDir p | .appending p =>
    [(p.mutation, p.event.outcome)]
  | .next | .returned _ | .failed _ => []

/-- What a call has decided so far. -/
def Call.decided (call : Call) : List (Mutation × Outcome) :=
  call.phase.decided ++ call.done.filterMap fun d => d.1.map (·, d.2.outcome)

/-- The object a call holds. -/
def Phase.ref : Phase → Option ℕ
  | .loaded _ ref | .applied ref _ | .makingDir ref _ => some ref
  | _ => none

/-- From `load` to the renaming of the file. -/
def Phase.ready : Phase → Bool
  | .loaded _ _ | .applied _ _ | .makingDir _ _ | .writing _ _ _ | .moving _ _ _ => true
  | _ => false

/-- The steps of a call, each with what it finds. -/
inductive Effect (platform : Platform) (env : Env) (store : Store) (call : Call) :
    Store → Call → Prop
  | fail (error : JsString) : Effect platform env store call store (call.to (.failed error))
  | take {m : Mutation} {work : List (Option Mutation)} (phase : call.phase = .next)
      (work_eq : call.work = some m :: work) : Effect platform env store call store
        ⟨call.request, work, call.done, .load (.mutate m)⟩
  | skip {event : AuditEvent} {work : List (Option Mutation)} (phase : call.phase = .next)
      (work_eq : call.work = none :: work) : Effect platform env store call store
        ⟨call.request, work, call.done ++ [(none, event)], .next⟩
  | finish {nowMs : JsNumber} (phase : call.phase = .next) :
      Effect platform env store call store (call.to (.load (.finish nowMs)))
  | hold {k : Waiting} {ref : ℕ} (phase : call.phase = .load k) (state : store.state = some ref) :
      Effect platform env store call store (call.to (.loaded k ref))
  | await {k : Waiting} (phase : call.phase = .load k) (state : store.state = none) :
      Effect platform env store call store (call.to (.reading k))
  | read {k : Waiting} (phase : call.phase = .reading k) :
      Effect platform env store call store (call.to (.read k store.fileText))
  | assign {k : Waiting} {text : Option FileText} {state : StoredState}
      (phase : call.phase = .read k text)
      (parsed : parseState platform env store.registryId text = some state) :
      Effect platform env store call
        { store with state := some store.objects.length, objects := store.objects ++ [state] }
        (call.to (.loaded k store.objects.length))
  | apply {m : Mutation} {ref : ℕ} {state : StoredState} {nowMs : JsNumber} {a : Applied}
      (phase : call.phase = .loaded (.mutate m) ref) (object : store.objects[ref]? = some state)
      (time : nowMs = m.input.now.getD (.finite env.now))
      (applied : PosRegistry.apply platform state m nowMs = .ok a) :
      Effect platform env store call (store.setObject ref a.state)
        (call.to (.applied ref ⟨m, nowMs, a.decision, a.outcome, a.errors⟩))
  | report {p : Logged} {ref : ℕ} {status : PublicStatus}
      (phase : call.phase = .loaded (.report p) ref) :
      Effect platform env store call store (call.report p status)
  | finished {nowMs : JsNumber} {ref : ℕ} {status : PublicStatus}
      (phase : call.phase = .loaded (.finish nowMs) ref) :
      Effect platform env store call store (call.finish status)
  | log {p : Pending} {ref : ℕ} {state : StoredState} {event : AuditEvent}
      (phase : call.phase = .applied ref p) (object : store.objects[ref]? = some state)
      (outcome : event.outcome = p.outcome) :
      Effect platform env store call (store.setObject ref (state.logged event))
        (call.to (.makingDir ref ⟨p.mutation, p.nowMs, p.decision, event⟩))
  | text {p : Logged} {ref : ℕ} {state : StoredState} (phase : call.phase = .makingDir ref p)
      (object : store.objects[ref]? = some state) :
      Effect platform env store call { store with texts := store.texts ++ [state] }
        (call.to (.writing env.now store.texts.length p))
  | write {path text : ℕ} {p : Logged} (phase : call.phase = .writing path text p) :
      Effect platform env store call { store with temps := store.temps.set path text }
        (call.to (.moving path text p))
  | rename {path text n : ℕ} {p : Logged} (phase : call.phase = .moving path text p)
      (temp : store.temps.get? path = some n) :
      Effect platform env store call
        { store with file := .text n, temps := store.temps.erase path }
        (call.to (.makingAuditDir p))
  | auditDir {p : Logged} (phase : call.phase = .makingAuditDir p) :
      Effect platform env store call store (call.to (.appending p))
  | audit {p : Logged} (phase : call.phase = .appending p) :
      Effect platform env store call { store with auditLog := store.auditLog ++ [p.event] }
        (call.to (.load (.report p)))

theorem auditEvent_outcome {env : Env} {action : Action} {input : MutationInput}
    {outcome : Outcome} {errors : List JsString} {nowMs : JsNumber} {event : AuditEvent}
    (h : auditEvent platform env action input outcome errors nowMs = .ok event) :
    event.outcome = outcome := by
  obtain ⟨createdAt, -, h⟩ := bind_eq_ok.1 h
  cases h
  rfl

theorem nextWork_effect {env : Env} {store : Store} {call call' : Call}
    (hphase : call.phase = .next) (h : nextWork platform env call = some call') :
    Effect platform env store call store call' := by
  unfold nextWork at h
  split at h
  · rename_i hwork
    cases h
    exact .take hphase hwork
  · rename_i hwork _
    simp only at h
    split at h
    · cases h
      exact .skip hphase hwork
    · cases h
      exact .fail _
  · cases h
    exact .finish hphase
  · cases h

theorem advance_effect {env : Env} {store store' : Store} {call call' : Call}
    (h : advance platform env store call = some (store', call')) :
    Effect platform env store call store' call' := by
  unfold advance at h
  split at h
  · rename_i hphase
    obtain ⟨_, hnext, hp⟩ := Option.map_eq_some_iff.1 h
    cases hp
    exact nextWork_effect hphase hnext
  · rename_i k hphase
    unfold load at h
    split at h
    · rename_i hstate
      cases h
      exact .hold hphase hstate
    · rename_i hstate
      cases h
      exact .await hphase hstate
  · rename_i k hphase
    unfold readFile at h
    split_ifs at h
    · cases h
      exact .fail _
    · cases h
      exact .read hphase
  · rename_i k text hphase
    unfold assignState at h
    split at h
    · cases h
      exact .fail _
    · rename_i hparsed
      cases h
      exact .assign hphase hparsed
  · rename_i k ref hphase
    obtain ⟨state, hobject, h⟩ := Option.map_eq_some_iff.1 h
    unfold afterLoad at h
    split at h
    · simp only at h
      split at h
      · cases h
        exact .fail _
      · rename_i happly
        cases h
        exact .apply hphase hobject rfl happly
    · split at h
      · cases h
        exact .fail _
      · cases h
        exact .report hphase
    · split at h
      · cases h
        exact .fail _
      · cases h
        exact .finished hphase
  · rename_i ref p hphase
    obtain ⟨state, hobject, h⟩ := Option.map_eq_some_iff.1 h
    unfold logEvent at h
    split at h
    · cases h
      exact .fail _
    · rename_i hevent
      cases h
      exact .log hphase hobject (auditEvent_outcome hevent)
  · rename_i ref p hphase
    obtain ⟨state, hobject, h⟩ := Option.map_eq_some_iff.1 h
    unfold makeText at h
    split_ifs at h
    · cases h
      exact .fail _
    · cases h
      exact .text hphase hobject
  · rename_i path text p hphase
    unfold writeFile at h
    split_ifs at h
    · cases h
      exact .fail _
    · cases h
      exact .write hphase
  · rename_i path text p hphase
    unfold PosRegistry.rename at h
    split_ifs at h
    · cases h
      exact .fail _
    · split at h
      · cases h
        exact .fail _
      · rename_i htemp
        cases h
        exact .rename hphase htemp
  · rename_i p hphase
    split_ifs at h
    · cases h
      exact .fail _
    · cases h
      exact .auditDir hphase
  · rename_i p hphase
    unfold appendAudit at h
    split_ifs at h
    · cases h
      exact .fail _
    · cases h
      exact .audit hphase
  · cases h
  · cases h

/-! ## What a step keeps -/

/-- The object a call holds is the state in memory. -/
def Held (store : Store) (call : Call) : Prop :=
  ∀ ref, call.phase.ref = some ref → store.state = some ref

section Effect

variable {env : Env} {store store' : Store} {call call' : Call}

theorem Effect.request (h : Effect platform env store call store' call') :
    call'.request = call.request := by
  cases h with
  | report => unfold Call.report; split <;> rfl
  | _ => rfl

theorem Effect.given (h : Effect platform env store call store' call') :
    store'.given = store.given := by
  cases h <;> rfl

theorem Effect.mutations (h : Effect platform env store call store' call') :
    call'.mutations ⊆ call.mutations := by
  intro m hm
  unfold Call.mutations at hm ⊢
  cases h with
  | report phase =>
    unfold Call.report at hm
    split at hm <;>
      simp only [phase, Phase.mutations, Waiting.mutations, List.map_append, List.map_cons,
        List.map_nil, List.reduceOption_append, List.reduceOption_singleton, List.mem_append,
        List.mem_singleton, Option.mem_toList, Option.some.injEq, List.not_mem_nil, @eq_comm _ _ m] at hm ⊢ <;>
      tauto
  | take phase work_eq | skip phase work_eq =>
    simp only [phase, work_eq, Phase.mutations, Waiting.mutations, List.map_append, List.map_cons,
      List.map_nil, List.reduceOption_append, List.reduceOption_cons_of_some,
      List.reduceOption_cons_of_none, List.reduceOption_nil, List.mem_append, List.mem_cons,
      List.not_mem_nil, or_false] at hm ⊢
    tauto
  | fail =>
    simp only [Call.to, Phase.mutations, List.append_nil, List.mem_append] at hm ⊢
    tauto
  | _ phase => simp_all [Call.to, Call.finish, Phase.mutations, Waiting.mutations]

theorem Store.current_of_object {ref : ℕ} {state : StoredState} (hs : store.state = some ref)
    (ho : store.objects[ref]? = some state) : store.current = some state := by
  rw [Store.current, hs, Option.bind_some, ho]

theorem Store.current_setObject {ref : ℕ} {state state' : StoredState}
    (hs : store.state = some ref) (ho : store.objects[ref]? = some state) :
    (store.setObject ref state').current = some state' := by
  obtain ⟨hlt, -⟩ := List.getElem?_eq_some_iff.1 ho
  simp [Store.current, Store.setObject, hs, hlt]

theorem Effect.held (h : Effect platform env store call store' call')
    (hkeeps : KeepsState store store') (hheld : Held store call) : Held store' call' := by
  intro ref href
  cases h with
  | hold phase state =>
    cases href
    exact state
  | assign phase parsed =>
    cases href
    rfl
  | apply phase object time applied => exact hheld ref (by rw [phase]; exact href)
  | log phase object outcome => exact hheld ref (by rw [phase]; exact href)
  | report phase =>
    unfold Call.report at href
    split at href <;> cases href
  | _ => cases href

theorem Effect.state_none (h : Effect platform env store call store' call')
    (hnone : store'.state = none) : store.state = none := by
  cases h with
  | assign => cases hnone
  | _ => exact hnone

theorem Effect.ready (h : Effect platform env store call store' call')
    (hready : call.phase.ready → store.state ≠ none) :
    call'.phase.ready → store'.state ≠ none := by
  intro hr hnone
  have hcall := h.state_none hnone
  cases h with
  | hold phase state =>
    rw [hcall] at state
    cases state
  | assign => cases hnone
  | apply phase | log phase | text phase | write phase => exact hready (by rw [phase]; rfl) hcall
  | report phase =>
    unfold Call.report at hr
    split at hr <;> cases hr
  | _ => cases hr

/-- The state in memory only grows. -/
theorem Effect.grows (h : Effect platform env store call store' call')
    (hkeeps : KeepsState store store') (hheld : Held store call) {state : StoredState}
    (hs : store.current = some state) : ∃ state', store'.current = some state'
      ∧ state.Within state' := by
  cases h with
  | assign phase parsed =>
    exfalso
    obtain ⟨ref, href, hobj⟩ := Option.bind_eq_some_iff.1 hs
    obtain ⟨hlt, -⟩ := List.getElem?_eq_some_iff.1 hobj
    rcases hkeeps with hnone | hsame
    · rw [hnone] at href
      cases href
    · rw [href] at hsame
      simp only [Option.some.injEq] at hsame
      omega
  | apply phase object time applied =>
    have href := hheld _ (by rw [phase]; rfl)
    rw [Store.current_of_object href object, Option.some.injEq] at hs
    subst hs
    exact ⟨_, Store.current_setObject href object, apply_within applied⟩
  | log phase object outcome =>
    have href := hheld _ (by rw [phase]; rfl)
    rw [Store.current_of_object href object, Option.some.injEq] at hs
    subst hs
    exact ⟨_, Store.current_setObject href object, .logged _ _⟩
  | _ => exact ⟨state, hs, .refl _⟩

/-- A decision that a step makes. -/
structure Decides (platform : Platform) (env : Env) (store store' : Store) (m : Mutation)
    (outcome : Outcome) (state : StoredState) (a : Applied) : Prop where
  current : store.current = some state
  applied : PosRegistry.apply platform state m (m.input.now.getD (.finite env.now)) = .ok a
  outcome : a.outcome = outcome
  result : store'.current = some a.state

theorem Effect.decided (h : Effect platform env store call store' call') (hheld : Held store call)
    {m : Mutation} {outcome : Outcome} (hd : (m, outcome) ∈ call'.decided) :
    (m, outcome) ∈ call.decided
      ∨ ∃ state a, Decides platform env store store' m outcome state a := by
  unfold Call.decided at hd ⊢
  cases h with
  | apply phase object time applied =>
    rw [phase]
    simp only [Call.to, Phase.decided, List.mem_append, List.mem_singleton] at hd ⊢
    rcases hd with hd | hd
    · cases hd
      have href := hheld _ (by rw [phase]; rfl)
      subst time
      exact .inr ⟨_, _, Store.current_of_object href object, applied, rfl,
        Store.current_setObject href object⟩
    · exact .inl (.inr hd)
  | log phase object outcome =>
    rw [phase]
    simp only [Call.to, Phase.decided, outcome] at hd ⊢
    exact .inl hd
  | report phase =>
    unfold Call.report at hd
    left
    split at hd <;>
      simp only [phase, Phase.decided, Waiting.decided, List.filterMap_append, List.filterMap_cons,
        List.filterMap_nil, Option.map_some, List.mem_append, List.mem_singleton, List.nil_append]
        at hd ⊢ <;>
      tauto
  | skip phase =>
    left
    rw [phase]
    simpa [Phase.decided] using hd
  | fail =>
    left
    simp only [Call.to, Phase.decided, List.nil_append] at hd
    exact List.mem_append_right _ hd
  | take phase | finish phase | hold phase | await phase | read phase | assign phase
  | finished phase | text phase | write phase | rename phase | auditDir phase | audit phase =>
    left
    rw [phase]
    exact hd

end Effect

/-- A call past `load` has found a state in memory, and what it has accepted is in it. -/
structure Own (platform : Platform) (store : Store) (call : Call) : Prop where
  held : Held store call
  ready : call.phase.ready → store.state ≠ none
  recorded : ∀ m, (m, .accepted) ∈ call.decided →
    ∃ state, store.current = some state ∧ Recorded platform m state
  valid : ∀ m, (m, .accepted) ∈ call.decided → Valid platform m
  requested : ∀ m ∈ call.mutations, some m ∈ call.request.start platform

section Own

variable {env : Env} {store store' : Store} {call call' other : Call}

theorem own_start (request : Request) : Own platform store (start platform request) := by
  constructor
  · intro ref h
    cases h
  · intro h
    cases h
  · intro m h
    simp [Call.decided, start, Phase.decided] at h
  · intro m h
    simp [Call.decided, start, Phase.decided] at h
  · intro m h
    simpa [Call.mutations, start, Phase.mutations, List.reduceOption_mem_iff] using h

theorem Own.step (h : Own platform store call)
    (he : Effect platform env store call store' call') (hkeeps : KeepsState store store') :
    Own platform store' call' := by
  refine ⟨he.held hkeeps h.held, he.ready h.ready, fun m hm => ?_, fun m hm => ?_,
    fun m hm => ?_⟩
  · rcases he.decided h.held hm with hd | ⟨state, a, hd⟩
    · obtain ⟨state, hs, hr⟩ := h.recorded m hd
      obtain ⟨state', hs', hw⟩ := he.grows hkeeps h.held hs
      exact ⟨state', hs', hr.mono hw⟩
    · exact ⟨_, hd.result, apply_recorded hd.applied hd.outcome⟩
  · rcases he.decided h.held hm with hd | ⟨state, a, hd⟩
    · exact h.valid m hd
    · exact apply_valid hd.applied hd.outcome
  · rw [he.request]
    exact h.requested m (he.mutations hm)

/-- The step of one call leaves another its own. -/
theorem Own.frame (h : Own platform store call) (ho : Own platform store other)
    (he : Effect platform env store call store' call') (hkeeps : KeepsState store store') :
    Own platform store' other := by
  refine ⟨fun ref href => ?_, fun hready hnone => ho.ready hready (he.state_none hnone),
    fun m hm => ?_, ho.valid, ho.requested⟩
  · have hs := ho.held ref href
    rcases hkeeps with hnone | hsame
    · rw [hnone] at hs
      cases hs
    · rw [hsame, hs]
  · obtain ⟨state, hs, hr⟩ := ho.recorded m hm
    obtain ⟨state', hs', hw⟩ := he.grows hkeeps h.held hs
    exact ⟨state', hs', hr.mono hw⟩

end Own

/-- The state in memory is there, and before the first load none has been written. -/
structure Sound (store : Store) : Prop where
  object : ∀ ref, store.state = some ref → ref < store.objects.length
  file : store.state = none → store.file = .given
  texts : store.state = none → store.texts = []

theorem sound_init (registryId : JsString) (given : Option FileText) :
    Sound (Store.init registryId given) where
  object ref h := by cases h
  file _ := rfl
  texts _ := rfl

theorem Sound.current {store : Store} (h : Sound store) {ref : ℕ} (hs : store.state = some ref) :
    ∃ state, store.current = some state :=
  ⟨_, Store.current_of_object hs (List.getElem?_eq_getElem (h.object ref hs))⟩

theorem Sound.step {env : Env} {store store' : Store} {call call' : Call} (h : Sound store)
    (ho : Own platform store call) (he : Effect platform env store call store' call') :
    Sound store' := by
  have hready : ∀ hr : call.phase.ready, store'.state ≠ none := fun hr hnone =>
    ho.ready hr (he.state_none hnone)
  refine ⟨fun ref hs => ?_, fun hnone => ?_, fun hnone => ?_⟩
  · cases he with
    | assign =>
      simp only [Option.some.injEq] at hs
      simp [← hs]
    | apply | log => simpa [Store.setObject] using h.object ref hs
    | _ => exact h.object ref hs
  · have hfile := h.file (he.state_none hnone)
    cases he with
    | rename phase => exact absurd hnone (hready (by rw [phase]; rfl))
    | _ => exact hfile
  · have htexts := h.texts (he.state_none hnone)
    cases he with
    | text phase => exact absurd hnone (hready (by rw [phase]; rfl))
    | _ => exact htexts

/-- A load that keeps the state in memory is the first one. -/
theorem Sound.first_load {store : Store} (h : Sound store) {objects : List StoredState}
    (hkeeps : KeepsState store
      { store with state := some store.objects.length, objects := objects }) :
    store.state = none := by
  rcases hkeeps with hnone | hsame
  · exact hnone
  · exact absurd (h.object _ hsame.symm) (lt_irrefl _)

/-! ## A platform with a table of digests -/

def tableDates : Dates :=
  .ofTable ⟨[(1750000000000, js "2025-06-15T15:06:40.000Z"),
      (1750000000001, js "2025-06-15T15:06:40.001Z"),
      (1750000440000, js "2025-06-15T15:14:00.000Z"),
      (1750000600000, js "2025-06-15T15:16:40.000Z"),
      (1750000800000, js "2025-06-15T15:20:00.000Z"),
      (1750001040000, js "2025-06-15T15:24:00.000Z")], by decide⟩ (by decide) (by decide)

def tokenA : JsString := js "TOKEN00000000001"

def tokenB : JsString := js "TOKEN00000000002"

def tablePlatform : Platform where
  dates := tableDates
  toUpperCase s := s.map fun c => if 97 ≤ c.val ∧ c.val ≤ 122 then c - 32 else c
  hashState sequence used _ _ :=
    (([((0, []), "f987ed219d3fb74f"), ((0, [tokenA]), "55871d4e679f3d85"),
      ((1, [tokenA]), "0453b76a80f6463d"), ((1, [tokenA, tokenB]), "7b3fd5dd7f38689a"),
      ((2, [tokenA, tokenB]), "5719b4bb333ae9c4")].lookup (sequence, used)).map js).getD []

/-- A use of a token at 2025-06-15T15:06:40.000Z. -/
def useOf (jti : JsString) : MutationInput where
  keyId := some (js "pos-key-1")
  jti := some jti
  terminalId := none
  operatorId := none
  reason := none
  requestId := none
  now := some (.finite 1750000000000)

/-- A file operation that succeeds, `ms` later. -/
def envAt (ms : ℕ) : Env := ⟨1750000000000 + ms, fun _ => js "event", false⟩

/-- The token of a `markUsed` that has returned, and its outcome. -/
def markedToken (platform : Platform) (call : Call) : Option (JsString × Outcome) :=
  match call.request, call.phase with
  | .mutation ⟨.markUsed, input⟩, .returned (.mutation result) =>
    some (cleanJti platform input.jti, result.event.outcome)
  | _, _ => none

theorem marked_of_token {w : Tasks.World Store Call} {i : ℕ} {call : Call}
    (hi : w.tasks[i]? = some call) {jti : JsString} {outcome : Outcome}
    (h : markedToken platform call = some (jti, outcome)) :
    ∃ event, event.outcome = outcome ∧ Marked platform w i jti event := by
  unfold markedToken at h
  split at h
  · rename_i input result hr hp
    cases h
    exact ⟨result.event, rfl, call, hi, input, result, hr, hp, rfl, rfl⟩
  · cases h

theorem markable_useOf {jti : JsString} (hjti : cleanJti tablePlatform (some jti) ≠ []) :
    Markable tablePlatform none (useOf jti) where
  keyId := show cleanKeyId (some (js "pos-key-1")) ≠ [] by decide
  jti := hjti
  key_kept state h := by cases h
  token_kept state h := by cases h
  now n h := by
    cases h
    norm_num [JsNumber.plus, timeClip, AGID_SECURE_POS_REGISTRY_FRESHNESS_SECONDS]

instance : DecidableRel KeepsState := fun _ _ => inferInstanceAs (Decidable (_ ∨ _))

/-- The registry with two calls that have not begun. -/
def twoCalls (r r' : Request) : Tasks.World Store Call :=
  ⟨.init POS_AGID_SECURE_REGISTRY_ID none, [start tablePlatform r, start tablePlatform r']⟩

theorem twoCalls_run {c : Tasks.Condition Store Call Request} {r r' : Request}
    (hr : c.accepts r) (hr' : c.accepts r') (hmeet : ∀ t u, c.meet t u) :
    Tasks.Run (system tablePlatform) c (.init POS_AGID_SECURE_REGISTRY_ID none) (twoCalls r r') :=
  .tail (.single (.start hr fun _ _ => hmeet _ _)) (.start hr' fun _ _ => hmeet _ _)

/-- The calls step in turns, `n` times. -/
def inTurns : ℕ → List (Tasks.Move Request Env)
  | 0 => []
  | n + 1 => .advance 0 (envAt 0) :: .advance 1 (envAt 1) :: inTurns n

end Agid.PosRegistry
