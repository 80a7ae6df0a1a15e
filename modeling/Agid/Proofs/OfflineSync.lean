import Agid.Proofs.Clock
import Agid.Replicas

/-!
# What the operations of the offline record do

One lemma to a function, for each of the things a state is read for: its registers, its members
and its clock.  A merge changes a register at most once, as the entries of the other state have
different keys (`mergeStates_register`, `mergeStates_member`).
-/

namespace Agid.AddressOfflineCrdt

variable {V : Type} (P : Platform V)

/-! ## Creating operations -/

/-- What `createOperation` makes of its input. -/
structure Created (input : CreateOperationInput V) (operation : Operation V) : Prop where
  actorId : operation.actorId = cleanKey P.nfkc (some input.actorId) localActor
  record : ∀ now, sameEntity
    (createState P ⟨input.entityId, input.entityKind, input.domain, now⟩ : State V) operation
  clock : operation.clock = incrementClock P.nfkc input.clock operation.actorId
  action : operation.action = input.action
  field : operation.field
    = truthy ((truthy input.field).map fun f => cleanKey P.nfkc (some f) [])
  named : operation.action = .upsertField ∨ operation.action = .removeField →
    ∃ name, operation.field = some name
  publicValue : operation.publicValue = input.publicValue
  sensitive : operation.action = .upsertField → isSensitiveField P operation.field →
    operation.publicValue = none
  setName : operation.action = .addSetMember ∨ operation.action = .removeSetMember →
    ∃ s, operation.setName = some (cleanKey P.nfkc (some s) [])
  commitment : operation.action = .addSetMember ∨ operation.action = .removeSetMember →
    ∃ c, operation.memberCommitment = some c ∧ c ≠ []

theorem normalizePublicValue_ok {value value' : Option V}
    (h : normalizePublicValue P value = .ok value') : value' = value := by
  unfold normalizePublicValue at h
  split at h
  · simpa using h.symm
  · split_ifs at h
    simpa using h.symm

theorem truthy_eq_self {s : Option JsString} (h : truthy s ≠ none) : truthy s = s := by
  match s with
  | none => rfl
  | some [] => simp [truthy] at h
  | some (c :: t) => rfl

theorem checkOperation_ok {action : Action} {field setName : Option JsString}
    {memberCommitment valueCommitment : JsString} {publicValue : Option V}
    (h : checkOperation P action field setName memberCommitment valueCommitment publicValue
      = .ok ()) :
    (action = .upsertField ∨ action = .removeField → truthy field ≠ none)
      ∧ (action = .upsertField → isSensitiveField P (truthy field) → publicValue = none)
      ∧ (action = .addSetMember ∨ action = .removeSetMember →
        truthy setName ≠ none ∧ memberCommitment ≠ []) := by
  unfold checkOperation at h
  simp only at h
  split_ifs at h with h1 h2 h3 h4 h5
  refine ⟨fun ha hn => h1 ⟨ha, hn⟩, ?_, ?_⟩
  · intro ha hs
    have hf : truthy field ≠ none := fun hn => h1 ⟨Or.inl ha, hn⟩
    rw [truthy_eq_self hf] at hs
    by_contra hv
    exact h2 ⟨ha, hs, Option.isSome_iff_ne_none.2 hv⟩
  · exact fun ha => ⟨fun hn => h4 ⟨ha, hn⟩, fun hc => h5 ⟨ha, hc⟩⟩

theorem createOperation_ok {input : CreateOperationInput V} {operation : Operation V}
    (h : createOperation P input = .ok operation) : Created P input operation := by
  unfold createOperation at h
  simp only at h
  by_cases hid : cleanKey P.nfkc (some input.entityId) [] = []
  · rw [if_pos hid] at h
    cases h
  rw [if_neg hid] at h
  rcases hv : normalizePublicValue P input.publicValue with e | v
  · simp [hv, bind, Except.bind] at h
  · obtain rfl := normalizePublicValue_ok P hv
    rcases hc : checkOperation P input.action
        ((truthy input.field).map fun f => cleanKey P.nfkc (some f) [])
        ((truthy input.setName).map fun s => cleanKey P.nfkc (some s) [])
        (normalizeCommitment P input.memberCommitment)
        (normalizeCommitment P input.valueCommitment) input.publicValue with e | u
    · simp [hv, hc, bind, Except.bind] at h
    · simp only [hv, hc, bind, Except.bind, pure, Except.pure, Except.ok.injEq] at h
      obtain ⟨h0, h1, h2⟩ := checkOperation_ok P hc
      subst h
      refine ⟨rfl, fun now => ?_, rfl, rfl, rfl, fun ha => Option.ne_none_iff_exists'.1 (h0 ha), rfl,
        h1, fun ha => ?_, fun ha => ⟨_, ?_, (h2 ha).2⟩⟩
      · simp [sameEntity, createState]
      · have hs := (h2 ha).1
        rcases htn : truthy input.setName with _ | s
        · rw [htn] at hs
          exact absurd rfl hs
        · refine ⟨s, ?_⟩
          rw [htn] at hs
          simp only [truthy_eq_self hs]
          rfl
      · obtain ⟨c, s, hcs⟩ := List.exists_cons_of_ne_nil (h2 ha).2
        rw [hcs]
        rfl

variable [DecidableEq V]

/-- A merged register has the content of one of the two. -/
theorem mergeRegister_content (entityId : JsString) (o : Option (Register V)) (i : Register V) :
    (∃ c, o = some c ∧ (mergeRegister P entityId o i).1
        = { c with clock := (mergeRegister P entityId o i).1.clock })
      ∨ (mergeRegister P entityId o i).1
        = { i with clock := (mergeRegister P entityId o i).1.clock } := by
  cases o with
  | none => exact Or.inr rfl
  | some c =>
    simp only [mergeRegister]
    split
    · exact Or.inr rfl
    · exact Or.inl ⟨c, rfl, rfl⟩
    · exact Or.inl ⟨c, rfl, rfl⟩
    · have hw : winnerRegister c i = c ∨ winnerRegister c i = i := by
        unfold winnerRegister
        split_ifs <;> simp
      rcases hw with hw | hw <;> rw [hw] <;> split_ifs
      · exact Or.inl ⟨c, rfl, rfl⟩
      · exact Or.inl ⟨c, rfl, rfl⟩
      · exact Or.inr rfl
      · exact Or.inr rfl

/-! ## Applying an operation -/

theorem applyToRecord_clock (s : State V) (operation : Operation V) :
    (applyToRecord P s operation).clock
      = joinClocks P.nfkc (some s.clock.raw) (some operation.clock.raw) := by
  unfold applyToRecord
  cases operation.action <;> rfl

/-- A state keeps the record it belongs to. -/
def State.SameRecord (s s' : State V) : Prop :=
  s.entityId = s'.entityId ∧ s.entityKind = s'.entityKind ∧ s.domain = s'.domain

theorem applyToRecord_sameRecord (s : State V) (operation : Operation V) :
    (applyToRecord P s operation).SameRecord s := by
  unfold applyToRecord
  cases operation.action <;> exact ⟨rfl, rfl, rfl⟩

theorem applyToRecord_register (s : State V) (operation : Operation V) (t : Target) :
    (applyToRecord P s operation).register? t
      = if operation.target? = some t then
          some (mergeRegister P s.entityId (s.register? t) operation.register).1
        else s.register? t := by
  unfold applyToRecord Operation.target? Operation.register
  rcases ha : operation.action with _ | _ | _ | _ | _ <;> cases t with
  | field name =>
    first
    | rfl
    | simp only [State.register?, applyRegisterOperation, Record.get?_set, registerOf,
        Option.some.injEq, Target.field.injEq]
      split_ifs with hn
      · rw [hn]
      · rfl
  | entity => rfl

omit [DecidableEq V] in
theorem setMember_member (s : State V) (setName memberId q m : JsString) (v : SetMember) :
    (s.setMember setName memberId v).member? q m
      = if setName = q ∧ memberId = m then some v else s.member? q m := by
  unfold State.setMember State.member?
  rw [Record.get?_set]
  by_cases hq : setName = q
  · subst hq
    rw [if_pos rfl, Option.bind_some, Record.get?_set]
    by_cases hm : memberId = m
    · simp [hm]
    · rw [if_neg hm, if_neg fun h => hm h.2]
      cases s.sets.get? setName <;> rfl
  · rw [if_neg hq, if_neg fun h => hq h.1]

theorem applyToRecord_member (s : State V) (operation : Operation V) (q m : JsString) :
    (applyToRecord P s operation).member? q m
      = if operation.place? = some (q, m) then
          some (appliedMember P q m (s.member? q m) operation)
        else s.member? q m := by
  have hset : ∀ s' : State V, (applySetOperation P s' operation).member? q m
      = if operation.setName.getD [] = q ∧ operation.memberId.getD [] = m then
          some (appliedMember P q m (s'.member? q m) operation)
        else s'.member? q m := by
    intro s'
    have h := setMember_member s' (operation.setName.getD []) (operation.memberId.getD []) q m
      (appliedMember P (operation.setName.getD []) (operation.memberId.getD [])
        (s'.member? (operation.setName.getD []) (operation.memberId.getD [])) operation)
    rw [show (applySetOperation P s' operation).member? q m = _ from h]
    split_ifs with hqm
    · rw [hqm.1, hqm.2]
    · rfl
  unfold applyToRecord Operation.place?
  rcases ha : operation.action with _ | _ | _ | _ | _
  · rfl
  · rfl
  · simp only [hset, reduceCtorEq, or_false, if_true, Option.some.injEq, Prod.mk.injEq]
    rfl
  · simp only [hset, reduceCtorEq, false_or, if_true, Option.some.injEq, Prod.mk.injEq]
    rfl
  · rfl

theorem applyOperation_some {s s' : State V} {operation : Operation V}
    (h : applyOperation P (some s) operation = .ok s') :
    s' = applyToRecord P s operation ∧ sameEntity s operation := by
  unfold applyOperation at h
  simp only [Option.getD_some] at h
  split_ifs at h with hs
  exact ⟨(Except.ok.inj h).symm, hs⟩

theorem applyOperation_of_sameEntity {s : State V} {operation : Operation V}
    (h : sameEntity s operation) :
    applyOperation P (some s) operation = .ok (applyToRecord P s operation) := if_pos h

omit [DecidableEq V] in
theorem SameEntity.congr {s s' : State V} {operation : Operation V} (h : s'.SameRecord s)
    (hs : sameEntity s operation) : sameEntity s' operation := by
  obtain ⟨h1, h2, h3⟩ := h
  simpa only [sameEntity, h1, h2, h3] using hs

theorem deliver_ok : ∀ (l : List (Operation V)) {s : State V}, (∀ x ∈ l, sameEntity s x) →
    deliver P s l = .ok (l.foldl (applyToRecord P) s)
  | [], _, _ => rfl
  | x :: l, s, h => by
    rw [deliver, applyOperation_of_sameEntity P (h x List.mem_cons_self)]
    exact deliver_ok l fun y hy => SameEntity.congr (applyToRecord_sameRecord P s x)
      (h y (List.mem_cons_of_mem x hy))

/-! ## Merging states -/

/-- What a step leaves alone a loop leaves alone. -/
theorem foldl_keeps {σ ε β : Type*} (f : σ → β) (step : σ → ε → σ)
    (h : ∀ s e, f (step s e) = f s) : ∀ (l : List ε) (s : σ), f (l.foldl step s) = f s
  | [], _ => rfl
  | e :: l, s => (foldl_keeps f step h l (step s e)).trans (h s e)

/-- What only the start of a merge writes. -/
def State.header (s : State V) : JsString × EntityKind × JsString × Clock × ℤ :=
  (s.entityId, s.entityKind, s.domain, s.clock, s.updatedAt)

theorem foldl_mergeField_fields : ∀ (l : List (JsString × Register V)) (s : State V),
    (l.foldl (mergeField P) s).fields = l.foldl (fun fields e =>
      fields.set e.1 (mergeRegister P s.entityId (fields.get? e.1) e.2).1) s.fields
  | [], _ => rfl
  | e :: l, s => foldl_mergeField_fields l (mergeField P s e)

theorem mergeTombstone_header (s : State V) (r : Option (Register V)) :
    (mergeTombstone P s r).header = s.header ∧ (mergeTombstone P s r).fields = s.fields
      ∧ (mergeTombstone P s r).sets = s.sets := by
  cases r <;> exact ⟨rfl, rfl, rfl⟩

/-- A set's place, with nothing in it where there was none. -/
def withSet (s : State V) (q : JsString) : State V :=
  match s.sets.get? q with
  | some _ => s
  | none => { s with sets := s.sets.set q .empty }

omit [DecidableEq V] in
theorem mergeSet_eq (s : State V) (e : JsString × Record JsString SetMember) :
    mergeSet P s e = e.2.entries.foldl (mergeMember P e.1) (withSet s e.1) := rfl

omit [DecidableEq V] in
theorem withSet_header (s : State V) (q : JsString) :
    (withSet s q).header = s.header ∧ (withSet s q).fields = s.fields
      ∧ (withSet s q).tombstone = s.tombstone ∧ (withSet s q).conflicts = s.conflicts := by
  unfold withSet
  split <;> exact ⟨rfl, rfl, rfl, rfl⟩

omit [DecidableEq V] in
theorem mergeSet_header (s : State V) (e : JsString × Record JsString SetMember) :
    (mergeSet P s e).header = s.header ∧ (mergeSet P s e).fields = s.fields
      ∧ (mergeSet P s e).tombstone = s.tombstone := by
  rw [mergeSet_eq]
  obtain ⟨h1, h2, h3, -⟩ := withSet_header s e.1
  refine ⟨?_, ?_, ?_⟩
  · exact (foldl_keeps State.header (mergeMember P e.1) (fun _ _ => rfl) _ _).trans h1
  · exact (foldl_keeps State.fields (mergeMember P e.1) (fun _ _ => rfl) _ _).trans h2
  · exact (foldl_keeps State.tombstone (mergeMember P e.1) (fun _ _ => rfl) _ _).trans h3

section Merge

variable {l r : State V}

/-- The merge before the fields, the tombstone and the sets of the other state. -/
def mergeStart (l r : State V) : State V :=
  { l with
    clock := joinClocks P.nfkc (some l.clock.raw) (some r.clock.raw)
    updatedAt := if l.updatedAt > r.updatedAt then l.updatedAt else r.updatedAt
    conflicts := mergeConflictLists [l.conflicts, r.conflicts] }

def mergedFields (l r : State V) : State V :=
  r.fields.entries.foldl (mergeField P) (mergeStart P l r)

def mergedTombstone (l r : State V) : State V :=
  mergeTombstone P (mergedFields P l r) r.tombstone

theorem mergeStates_of_sameRecord (h : l.SameRecord r) :
    mergeStates P l r = r.sets.entries.foldl (mergeSet P) (mergedTombstone P l r) := by
  obtain ⟨h1, h2, h3⟩ := h
  rw [mergeStates, if_neg (by simp [h1, h2, h3])]
  rfl

theorem mergedFields_header (l r : State V) : (mergedFields P l r).header = (mergeStart P l r).header :=
  foldl_keeps State.header (mergeField P) (fun _ _ => rfl) _ _

theorem mergedTombstone_header (l r : State V) :
    (mergedTombstone P l r).header = (mergeStart P l r).header :=
  (mergeTombstone_header P _ _).1.trans (mergedFields_header P l r)

theorem mergeStates_header (h : l.SameRecord r) :
    (mergeStates P l r).header = (mergeStart P l r).header := by
  rw [mergeStates_of_sameRecord P h]
  exact (foldl_keeps State.header (mergeSet P) (fun s e => (mergeSet_header P s e).1) _ _).trans
    (mergedTombstone_header P l r)

theorem mergeStates_sameRecord (h : l.SameRecord r) : (mergeStates P l r).SameRecord l := by
  have hh := mergeStates_header P h
  simp only [State.header, mergeStart, Prod.mk.injEq] at hh
  exact ⟨hh.1, hh.2.1, hh.2.2.1⟩

theorem mergeStates_clock (h : l.SameRecord r) :
    (mergeStates P l r).clock = joinClocks P.nfkc (some l.clock.raw) (some r.clock.raw) := by
  have hh := mergeStates_header P h
  simp only [State.header, mergeStart, Prod.mk.injEq] at hh
  exact hh.2.2.2.1

theorem mergeStates_updatedAt (h : l.SameRecord r) :
    (mergeStates P l r).updatedAt = max l.updatedAt r.updatedAt := by
  have hh := mergeStates_header P h
  simp only [State.header, mergeStart, Prod.mk.injEq] at hh
  rw [hh.2.2.2.2]
  split_ifs <;> omega

theorem mergeStates_register (h : l.SameRecord r) (t : Target) :
    (mergeStates P l r).register? t
      = match r.register? t with
        | none => l.register? t
        | some v => some (mergeRegister P l.entityId (l.register? t) v).1 := by
  rw [mergeStates_of_sameRecord P h]
  cases t with
  | field name =>
    have hf : (r.sets.entries.foldl (mergeSet P) (mergedTombstone P l r)).fields
        = r.fields.entries.foldl (fun fields e =>
          fields.set e.1 (mergeRegister P l.entityId (fields.get? e.1) e.2).1) l.fields :=
      (foldl_keeps State.fields (mergeSet P) (fun s e => (mergeSet_header P s e).2.1) _ _).trans
        ((mergeTombstone_header P _ _).2.1.trans (foldl_mergeField_fields P _ _))
    rw [State.register?, hf, Record.get?_foldl_set
      (fun o v => (mergeRegister P l.entityId o v).1) name _ r.fields.nodup l.fields]
    simp only [State.register?, Record.get?]
    cases Record.lookup name r.fields.entries <;> rfl
  | entity =>
    have ht : (r.sets.entries.foldl (mergeSet P) (mergedTombstone P l r)).tombstone
        = (mergedTombstone P l r).tombstone :=
      foldl_keeps State.tombstone (mergeSet P) (fun s e => (mergeSet_header P s e).2.2) _ _
    have hl : (mergedFields P l r).tombstone = l.tombstone :=
      foldl_keeps State.tombstone (mergeField P) (fun _ _ => rfl) _ _
    have he : (mergedFields P l r).entityId = l.entityId :=
      foldl_keeps State.entityId (mergeField P) (fun _ _ => rfl) _ _
    rw [State.register?, ht, mergedTombstone]
    simp only [State.register?]
    cases r.tombstone with
    | none => exact hl
    | some v => rw [mergeTombstone, hl, he]

/-! ## Merging members -/

omit [DecidableEq V] in
theorem mergeMember_member (q q' m : JsString) (s : State V) (e : JsString × SetMember) :
    (mergeMember P q s e).member? q' m
      = if q = q' ∧ e.1 = m then some (mergedMember P q m (s.member? q m) e.2)
        else s.member? q' m := by
  have h := setMember_member s q e.1 q' m (mergedMember P q e.1 (s.member? q e.1) e.2)
  rw [show (mergeMember P q s e).member? q' m = _ from h]
  split_ifs with hqm
  · rw [hqm.2]
  · rfl

omit [DecidableEq V] in
theorem foldl_mergeMember_member (q q' m : JsString) :
    ∀ (l : List (JsString × SetMember)), (l.map Prod.fst).Nodup → ∀ s : State V,
      (l.foldl (mergeMember P q) s).member? q' m
        = if q = q' then
            match Record.lookup m l with
            | none => s.member? q m
            | some v => some (mergedMember P q m (s.member? q m) v)
          else s.member? q' m
  | [], _, s => by
    split_ifs with hq
    · rw [hq]
      rfl
    · rfl
  | e :: l, hn, s => by
    rw [List.map_cons, List.nodup_cons] at hn
    rw [List.foldl_cons, foldl_mergeMember_member q q' m l hn.2]
    simp only [mergeMember_member, true_and]
    by_cases hq : q = q'
    · subst hq
      by_cases hm : e.1 = m
      · subst hm
        rw [if_pos rfl, if_pos rfl, Record.lookup_eq_none hn.1, Record.lookup, if_pos rfl, if_pos rfl]
      · rw [if_pos rfl, if_pos rfl, if_neg hm, Record.lookup, if_neg hm]
    · rw [if_neg hq, if_neg hq, if_neg fun h => hq h.1]

omit [DecidableEq V] in
theorem withSet_member (s : State V) (q q' m : JsString) :
    (withSet s q).member? q' m = s.member? q' m := by
  unfold withSet
  split
  · rfl
  · rename_i hs
    simp only [State.member?, Record.get?_set]
    split_ifs with hq
    · rw [← hq, hs]
      rfl
    · rfl

omit [DecidableEq V] in
theorem mergeSet_member (s : State V) (e : JsString × Record JsString SetMember)
    (q m : JsString) :
    (mergeSet P s e).member? q m
      = if e.1 = q then
          match e.2.get? m with
          | none => s.member? q m
          | some v => some (mergedMember P q m (s.member? q m) v)
        else s.member? q m := by
  rw [mergeSet_eq, foldl_mergeMember_member P e.1 q m _ e.2.nodup]
  simp only [withSet_member]
  split_ifs with hq
  · rw [hq]
    rfl
  · rfl

omit [DecidableEq V] in
theorem foldl_mergeSet_member (q m : JsString) :
    ∀ (l : List (JsString × Record JsString SetMember)), (l.map Prod.fst).Nodup → ∀ s : State V,
      (l.foldl (mergeSet P) s).member? q m
        = match (Record.lookup q l).bind fun set => set.get? m with
          | none => s.member? q m
          | some v => some (mergedMember P q m (s.member? q m) v)
  | [], _, _ => rfl
  | e :: l, hn, s => by
    rw [List.map_cons, List.nodup_cons] at hn
    rw [List.foldl_cons, foldl_mergeSet_member q m l hn.2, mergeSet_member]
    by_cases hq : e.1 = q
    · subst hq
      rw [if_pos rfl, Record.lookup_eq_none hn.1, Record.lookup, if_pos rfl]
      rfl
    · rw [if_neg hq, Record.lookup, if_neg hq]

theorem mergeStates_member (h : l.SameRecord r) (q m : JsString) :
    (mergeStates P l r).member? q m
      = match r.member? q m with
        | none => l.member? q m
        | some v => some (mergedMember P q m (l.member? q m) v) := by
  have hs : (mergedTombstone P l r).sets = l.sets :=
    (mergeTombstone_header P _ _).2.2.trans (foldl_keeps State.sets (mergeField P) (fun _ _ => rfl) _ _)
  have hm : (mergedTombstone P l r).member? q m = l.member? q m := by
    rw [State.member?, hs, State.member?]
  rw [mergeStates_of_sameRecord P h, foldl_mergeSet_member P q m _ r.sets.nodup, hm]
  rfl

end Merge

end Agid.AddressOfflineCrdt
