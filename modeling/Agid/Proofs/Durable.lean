import Agid.Proofs.PosRegistry

/-!
# What is accepted stays in the file

Each text is made from the state in memory, which only grows, so a later text holds what an
earlier one does.  While no text takes the place of a later one, in the file or under a temporary
name, the file holds at least the text of every call that has renamed its own.
-/

namespace Agid.PosRegistry

variable {platform : Platform}

/-! ## Texts and files -/

/-- More texts, and a file that is not older. -/
structure Later (store store' : Store) : Prop where
  texts : store.texts <+: store'.texts
  file : store.file.age ≤ store'.file.age

/-- The text holds what the mutation has done. -/
def Written (platform : Platform) (store : Store) (n : ℕ) (p : Logged) : Prop :=
  ∃ state, store.texts[n]? = some state
    ∧ (p.event.outcome = .accepted → Recorded platform p.mutation state)

/-- A text no later than the file's holds it. -/
def Saved (platform : Platform) (store : Store) (m : Mutation) : Prop :=
  ∃ n state, n < store.file.age ∧ store.texts[n]? = some state ∧ Recorded platform m state

/-- Under its temporary name or in the file there is this text or a later one. -/
def Renamable (store : Store) (path n : ℕ) : Prop :=
  (∃ k, store.temps.get? path = some k ∧ n ≤ k) ∨ n < store.file.age

theorem Later.text {store store' : Store} (h : Later store store') {n : ℕ} {state : StoredState}
    (hn : store.texts[n]? = some state) : store'.texts[n]? = some state := by
  obtain ⟨hlt, -⟩ := List.getElem?_eq_some_iff.1 hn
  obtain ⟨more, hmore⟩ := h.texts
  rw [← hmore, List.getElem?_append_left hlt, hn]

theorem Written.mono {store store' : Store} (h : Later store store') {n : ℕ} {p : Logged}
    (hw : Written platform store n p) : Written platform store' n p := by
  obtain ⟨state, hn, hr⟩ := hw
  exact ⟨state, h.text hn, hr⟩

theorem Saved.mono {store store' : Store} (h : Later store store') {m : Mutation}
    (hs : Saved platform store m) : Saved platform store' m := by
  obtain ⟨n, state, hage, hn, hr⟩ := hs
  exact ⟨n, state, hage.trans_le h.file, h.text hn, hr⟩

def Waiting.Filed (platform : Platform) (store : Store) : Waiting → Prop
  | .report p => p.event.outcome = .accepted → Saved platform store p.mutation
  | .mutate _ | .finish _ => True

/-- How far what a phase carries has come to the file. -/
def Phase.Filed (platform : Platform) (store : Store) : Phase → Prop
  | .writing _ n p => Written platform store n p
  | .moving path n p => Written platform store n p ∧ Renamable store path n
  | .makingAuditDir p | .appending p =>
    p.event.outcome = .accepted → Saved platform store p.mutation
  | .load k | .reading k | .read k _ | .loaded k _ => k.Filed platform store
  | .next | .applied _ _ | .makingDir _ _ | .returned _ | .failed _ => True

structure FileInv (store : Store) : Prop where
  sound : Sound store
  order : store.texts.Pairwise StoredState.Within
  latest : ∀ text ∈ store.texts, ∃ state, store.current = some state ∧ text.Within state
  file : ∀ n, store.file = .text n → n < store.texts.length
  temps : ∀ path n, store.temps.get? path = some n → n < store.texts.length

structure FileOwn (platform : Platform) (store : Store) (call : Call) : Prop where
  own : Own platform store call
  phase : call.phase.Filed platform store
  done : ∀ m event, (some m, event) ∈ call.done → event.outcome = .accepted →
    Saved platform store m

/-! ## One step -/

section Step

variable {env : Env} {store store' : Store} {call call' other : Call}

theorem Effect.later (h : Effect platform env store call store' call')
    (hkeeps : InOrder store store') : Later store store' := by
  refine ⟨?_, hkeeps.file⟩
  cases h with
  | text => exact List.prefix_append _ _
  | _ => exact List.prefix_rfl

theorem Effect.renamable (h : Effect platform env store call store' call')
    (hkeeps : InOrder store store') {path n : ℕ} (hr : Renamable store path n) :
    Renamable store' path n := by
  rcases hr with ⟨k, hk, hnk⟩ | hage
  · cases h with
    | @write path' text p phase =>
      left
      have htemps := hkeeps.temps _ (Record.mem_entries.2 hk)
      simp only [Record.get?_set] at htemps ⊢
      split_ifs at htemps ⊢ with hpath
      · exact ⟨text, rfl, hnk.trans (htemps text rfl)⟩
      · exact ⟨k, hk, hnk⟩
    | @rename path' text n' p phase temp =>
      by_cases hpath : path' = path
      · subst hpath
        rw [temp, Option.some.injEq] at hk
        subst hk
        exact .inr (Nat.lt_succ_of_le hnk)
      · exact .inl ⟨k, by rw [Record.get?_erase, if_neg hpath, hk], hnk⟩
    | _ => exact .inl ⟨k, hk, hnk⟩
  · exact .inr (hage.trans_le hkeeps.file)

theorem Waiting.Filed.mono (h : Later store store') {k : Waiting} (hk : k.Filed platform store) :
    k.Filed platform store' := by
  cases k with
  | report p => exact fun ha => (hk ha).mono h
  | _ => trivial

theorem Phase.Filed.mono (h : Effect platform env store call store' call')
    (hkeeps : InOrder store store') {phase : Phase} (hp : phase.Filed platform store) :
    phase.Filed platform store' := by
  have hl := h.later hkeeps
  cases phase with
  | writing => exact Written.mono hl hp
  | moving => exact ⟨hp.1.mono hl, h.renamable hkeeps hp.2⟩
  | makingAuditDir | appending => exact fun ha => (hp ha).mono hl
  | load | reading | read | loaded => exact Waiting.Filed.mono hl hp
  | _ => trivial

theorem FileInv.step (hi : FileInv store) (h : FileOwn platform store call)
    (he : Effect platform env store call store' call') (hkeeps : InOrder store store') :
    FileInv store' := by
  have hgrows : ∀ text ∈ store.texts, ∃ state', store'.current = some state'
      ∧ text.Within state' := by
    intro text ht
    obtain ⟨state, hs, hw⟩ := hi.latest text ht
    obtain ⟨state', hs', hw'⟩ := he.grows hkeeps.state h.own.held hs
    exact ⟨state', hs', hw.trans hw'⟩
  have hlater : store.texts.length ≤ store'.texts.length := (he.later hkeeps).texts.length_le
  refine ⟨hi.sound.step h.own he, ?_, ?_, fun n hn => ?_, fun path n hn => ?_⟩
  · cases he with
    | text phase object =>
      refine List.pairwise_append.2 ⟨hi.order, List.pairwise_singleton _ _, fun t ht u hu => ?_⟩
      obtain ⟨state, hs, hw⟩ := hi.latest t ht
      rw [Store.current_of_object (h.own.held _ (by rw [phase]; rfl)) object] at hs
      rw [List.mem_singleton.1 hu, Option.some.inj hs]
      exact hw
    | _ => exact hi.order
  · intro text ht
    cases he with
    | text phase object =>
      rcases List.mem_append.1 ht with ht | ht
      · exact hgrows text ht
      · rw [List.mem_singleton.1 ht]
        exact ⟨_, Store.current_of_object (h.own.held _ (by rw [phase]; rfl)) object, .refl _⟩
    | _ => exact hgrows text ht
  · cases he with
    | rename phase temp =>
      cases hn
      exact hi.temps _ n temp
    | _ => exact (hi.file n hn).trans_le hlater
  · cases he with
    | @write path' text p phase =>
      rw [Record.get?_set] at hn
      split_ifs at hn
      · cases hn
        have hp := h.phase
        rw [phase] at hp
        obtain ⟨state, hstate, -⟩ := hp
        exact (List.getElem?_eq_some_iff.1 hstate).1
      · exact hi.temps path n hn
    | rename phase temp =>
      rw [Record.get?_erase] at hn
      split_ifs at hn
      exact hi.temps path n hn
    | _ => exact (hi.temps path n hn).trans_le hlater

theorem FileOwn.filed (h : FileOwn platform store call)
    (he : Effect platform env store call store' call') (hkeeps : InOrder store store') :
    call'.phase.Filed platform store' := by
  have hp : call.phase.Filed platform store' := h.phase.mono he hkeeps
  cases he with
  | hold phase | await phase | read phase | assign phase | auditDir phase | audit phase =>
    rw [phase] at hp
    exact hp
  | @text p ref state phase object =>
    refine ⟨state, by simp, fun ha => ?_⟩
    obtain ⟨state', hs, hr⟩ := h.own.recorded p.mutation (by
      simp [Call.decided, phase, Phase.decided, ha])
    rw [Store.current_of_object (h.own.held ref (by rw [phase]; rfl)) object] at hs
    exact Option.some.inj hs ▸ hr
  | @write path text p phase =>
    rw [phase] at hp
    exact ⟨hp, .inl ⟨text, by simp, le_rfl⟩⟩
  | @rename path text n p phase temp =>
    rw [phase] at hp
    obtain ⟨⟨state, hstate, hr⟩, -⟩ := hp
    have hold := h.phase
    rw [phase] at hold
    refine fun ha => ⟨text, state, ?_, hstate, hr ha⟩
    rcases hold.2 with ⟨k, hk, hle⟩ | hage
    · rw [temp, Option.some.injEq] at hk
      subst hk
      exact Nat.lt_succ_of_le hle
    · exact hage.trans_le hkeeps.file
  | report phase =>
    unfold Call.report
    split <;> trivial
  | _ => trivial

theorem FileOwn.step (h : FileOwn platform store call)
    (he : Effect platform env store call store' call') (hkeeps : InOrder store store') :
    FileOwn platform store' call' := by
  have hdone : ∀ m event, (some m, event) ∈ call.done → event.outcome = .accepted →
      Saved platform store' m := fun m event hm ha => (h.done m event hm ha).mono (he.later hkeeps)
  refine ⟨h.own.step he hkeeps.state, h.filed he hkeeps, fun m event hm ha => ?_⟩
  cases he with
  | @report p ref status phase =>
    have hp := h.phase
    rw [phase] at hp
    have hcases : (some m, event) ∈ call.done ∨ m = p.mutation ∧ event = p.event := by
      unfold Call.report at hm
      split at hm <;> simpa using hm
    rcases hcases with hm | ⟨rfl, rfl⟩
    · exact hdone m event hm ha
    · exact hp ha
  | skip =>
    refine hdone m event ?_ ha
    simpa using hm
  | _ => exact hdone m event hm ha

theorem FileOwn.frame (h : FileOwn platform store call) (ho : FileOwn platform store other)
    (he : Effect platform env store call store' call') (hkeeps : InOrder store store') :
    FileOwn platform store' other :=
  ⟨h.own.frame ho.own he hkeeps.state, ho.phase.mono he hkeeps,
    fun m event hm ha => (ho.done m event hm ha).mono (he.later hkeeps)⟩

end Step

/-! ## Every run -/

def fileRule (platform : Platform) : Tasks.Rule (system platform) inOrder where
  inv := FileInv
  own := FileOwn platform
  apart _ _ := True
  symm _ := trivial
  start _ _ := ⟨own_start _, trivial, fun m event h => by cases h⟩
  start_apart _ _ _ _ := trivial
  advance hi h hnext hkeeps :=
    have he := advance_effect hnext
    ⟨hi.step h he hkeeps, h.step he hkeeps⟩
  frame _ h ho _ hnext hkeeps _ := ⟨h.frame ho (advance_effect hnext) hkeeps, trivial⟩

theorem fileInv_init (registryId : JsString) (given : Option FileText) :
    FileInv (Store.init registryId given) where
  sound := sound_init registryId given
  order := List.Pairwise.nil
  latest text h := by cases h
  file n h := by cases h
  temps path n h := by cases h

/-- A saved mutation of a call is read back from the file. -/
theorem Saved.persisted {store : Store} (hi : FileInv store) {m : Mutation}
    (hs : Saved platform store m) (hv : Valid platform m) : Persisted platform store m := by
  obtain ⟨n, state, hage, hn, hr⟩ := hs
  intro env
  rcases hfile : store.file with _ | k
  · rw [hfile] at hage
    cases hage
  · rw [hfile] at hage
    have hk := hi.file k hfile
    obtain ⟨hlt, rfl⟩ := List.getElem?_eq_some_iff.1 hn
    have hw : store.texts[n].Within store.texts[k] := by
      rcases Nat.lt_or_eq_of_le (Nat.le_of_lt_succ hage) with hnk | rfl
      · exact List.pairwise_iff_getElem.1 hi.order n k hlt hk hnk
      · exact .refl _
    have hparse : parseState platform env store.registryId store.fileText
        = some (normalizeState platform env store.registryId store.texts[k].raw) := by
      simp [Store.fileText, hfile, hk, parseState]
    exact ⟨_, hparse, (hr.mono hw).raw hv⟩

theorem durable_of_inOrder (registryId : JsString) (given : Option FileText)
    {w : Tasks.World Store Call}
    (h : Tasks.Run (system platform) inOrder (.init registryId given) w) : Durable platform w := by
  have hw := (fileRule platform).holds (fileInv_init registryId given) h
  intro call hcall m event hm ha
  have ho : FileOwn platform w.store call := hw.own call hcall
  refine (ho.done m event hm ha).persisted hw.inv (ho.own.valid m ?_)
  exact List.mem_append_right _ (List.mem_filterMap.2 ⟨_, hm, by simp [ha]⟩)

/-! ## Two uses -/

instance : DecidableRel InOrder := fun store store' =>
  decidable_of_iff (KeepsState store store' ∧ store.file.age ≤ store'.file.age
    ∧ ∀ e ∈ store.temps.entries, ∀ n ∈ store'.temps.get? e.1, e.2 ≤ n)
    ⟨fun h => ⟨h.1, h.2.1, h.2.2⟩, fun h => ⟨h.state, h.file, h.temps⟩⟩

structure Report where
  action : MutationAction
  jti : JsString
  outcome : Outcome
deriving DecidableEq

/-- What the calls have reported. -/
def reports (w : Tasks.World Store Call) : List Report :=
  w.tasks.flatMap fun call => call.done.filterMap fun d =>
    d.1.map fun m => ⟨m.action, cleanJti tablePlatform m.input.jti, d.2.outcome⟩

/-- The used tokens that the file holds. -/
def fileTokens (w : Tasks.World Store Call) : Option (List JsString) :=
  (parseState tablePlatform (envAt 0) w.store.registryId w.store.fileText).map (·.usedJtis)

theorem not_persisted {w : Tasks.World Store Call} (report : Report) {tokens : List JsString}
    (hr : report ∈ reports w) (hmark : report.action = .markUsed)
    (ha : report.outcome = .accepted) (htokens : fileTokens w = some tokens)
    (hmem : report.jti ∉ tokens) : ¬ Durable tablePlatform w := by
  intro h
  obtain ⟨call, hcall, hr⟩ := List.mem_flatMap.1 hr
  obtain ⟨⟨m, event⟩, hd, hr⟩ := List.mem_filterMap.1 hr
  obtain ⟨m, rfl, rfl⟩ := Option.map_eq_some_iff.1 hr
  obtain ⟨state, hs, hrecorded⟩ := h call hcall m event hd ha (envAt 0)
  rw [fileTokens, hs, Option.map_some, Option.some.injEq] at htokens
  simp only at hmark
  rw [Recorded, hmark, htokens] at hrecorded
  exact hmem hrecorded

theorem twoUses_run {c : Tasks.Condition Store Call Request} (haccepts : ∀ r, c.accepts r)
    (hmeet : ∀ t u, c.meet t u) :
    Tasks.Run (system tablePlatform) c (.init POS_AGID_SECURE_REGISTRY_ID none)
      (twoCalls (.mutation ⟨.markUsed, useOf tokenA⟩) (.mutation ⟨.markUsed, useOf tokenB⟩)) :=
  twoCalls_run (haccepts _) (haccepts _) hmeet

/-- The second call writes and renames its text after the first. -/
theorem durable_of_inOrder_twice : ∃ w, Durable tablePlatform w
    ∧ reports w = [⟨.markUsed, tokenA, .accepted⟩, ⟨.markUsed, tokenB, .accepted⟩]
    ∧ fileTokens w = some [tokenA, tokenB] := by
  let : DecidablePred inOrder.accepts := fun _ => .isTrue trivial
  let : DecidableRel inOrder.keeps := inferInstanceAs (DecidableRel InOrder)
  let : DecidableRel inOrder.meet := fun _ _ => .isTrue trivial
  obtain ⟨w, hw, hreports⟩ := (twoUses_run (c := inOrder) (fun _ => trivial)
    fun _ _ => trivial).play (fun w => (reports w, fileTokens w))
    (a := ([⟨.markUsed, tokenA, .accepted⟩, ⟨.markUsed, tokenB, .accepted⟩], some [tokenA, tokenB]))
    (List.replicate 4 (.advance 0 (envAt 0)) ++ inTurns 9
      ++ List.replicate 2 (.advance 1 (envAt 1))) (by decide +kernel)
  exact ⟨w, durable_of_inOrder _ _ hw, congrArg Prod.fst hreports, congrArg Prod.snd hreports⟩

/-- The first call makes its text, and renames it when the second has renamed its own. -/
theorem late_rename_not_durable :
    ¬ ∀ w, Tasks.Run (system tablePlatform) Tasks.Condition.free
      (.init POS_AGID_SECURE_REGISTRY_ID none) w → (∀ call ∈ w.tasks, call.hasReturned) →
        Durable tablePlatform w := by
  intro h
  obtain ⟨w, hw, hreports⟩ := (twoUses_run (c := .free) (fun _ => trivial)
    fun _ _ => trivial).play
    (fun w => (w.tasks.all Call.hasReturned, reports w, fileTokens w))
    (a := (true, [⟨.markUsed, tokenA, .accepted⟩, ⟨.markUsed, tokenB, .accepted⟩], some [tokenA]))
    (List.replicate 7 (.advance 0 (envAt 0)) ++ List.replicate 11 (.advance 1 (envAt 1))
      ++ List.replicate 6 (.advance 0 (envAt 0))) (by decide +kernel)
  simp only [Prod.mk.injEq, List.all_eq_true] at hreports
  obtain ⟨hreturned, hdone, hfile⟩ := hreports
  refine not_persisted ⟨.markUsed, tokenB, .accepted⟩ (by simp [hdone]) rfl rfl hfile
    (by decide) (h w hw hreturned)

end Agid.PosRegistry
